import ScratchBird.Index.BtreeInsert
import ScratchBird.Index.BtreeValidate

/-!
# Deleting from the ordered index

`DeleteIndexBtreeCell`: a cell is first marked, and a leaf left with fewer than
two live cells is compacted, refilled from a neighbour, merged with one, or,
when its neighbours hang under other parents, removed by rebuilding the tree
from its live entries. Evidence strings and the report of a rebuild are left out.
-/

namespace ScratchBird.Btree

open Lib

structure IndexBtreePhysicalDeleteResult where
  deleted : Bool := false
  tombstoneMarked : Bool := false
  cleanupPerformed : Bool := false
  rebalancePerformed : Bool := false
  mergePerformed : Bool := false
  structuralRebuildPerformed : Bool := false
  rootCollapsed : Bool := false
  rootPageNumber : UInt64 := 0
  leafPageNumber : UInt64 := 0
  keptPageNumber : UInt64 := 0
  removedPageNumber : UInt64 := 0
  tombstonesRemoved : Nat := 0

/-! ## Rebuilding -/

/-- A refusal that keeps the code and names the stage it happened in. -/
def atStage {α : Type} (detail : String) (x : Except DiagnosticRecord α) :
    Except DiagnosticRecord α :=
  match x with
  | .ok a => .ok a
  | .error d => indexPageError d.diagnosticCode d.messageKey detail

def insertAll : List IndexBtreeCell → IndexBtreePhysicalTree →
    Except DiagnosticRecord IndexBtreePhysicalTree
  | [], tree => .ok tree
  | cell :: rest, tree =>
    match (insertIndexBtreeCell
      { cell with highKey := false, deleted := false, childPageNumber := 0 }).run.run tree with
    | (.ok _, tree) => insertAll rest tree
    | (.error d, _) => .error d

/-- The exported image has the fields of the tree. -/
def exportIndexBtreePhysicalTreeImage (tree : IndexBtreePhysicalTree) :
    Except DiagnosticRecord IndexBtreePhysicalTree := do
  let _ ← atStage "export_validation_failed" (validateIndexBtreePhysicalTree tree)
  .ok tree

/-- An image has the fields of the tree it is imported as. -/
def importIndexBtreePhysicalTreeImage (image : IndexBtreePhysicalTree) :
    Except DiagnosticRecord IndexBtreePhysicalTree :=
  if image.pageSize = 0 ∨ image.rootPageNumber = 0 ∨ image.pages = [] then
    indexPageError "SB-INDEX-BTREE-PHYSICAL-IMAGE-INVALID"
      "storage.index_btree_physical.image_invalid"
  else do
    let _ ← atStage "import_validation_failed" (validateIndexBtreePhysicalTree image)
    .ok image

def checkRebuildDuplicates (entries : List IndexBtreeCell) : Except DiagnosticRecord Unit :=
  checkNeighbours sameLiveEntry "SB-INDEX-BTREE-PHYSICAL-REBUILD-DUPLICATE-LIVE-ENTRY"
    "storage.index_btree_physical.rebuild_duplicate_live_entry" 1 entries

def rebuildIndexBtreePhysicalTreeFromLiveCells
    (source : IndexBtreePhysicalTree) (liveEntries : List IndexBtreeCell) :
    Except DiagnosticRecord IndexBtreePhysicalTree := do
  let fresh ← atStage "rebuild_initialize_failed"
    (initializeIndexBtreePhysicalTree source.indexUuid source.pageSize)
  checkRebuildDuplicates (sortCells liveEntries)
  let rebuilt ← atStage "rebuild_insert_failed" (insertAll (sortCells liveEntries) fresh)
  let _ ← atStage "rebuild_validation_failed" (validateIndexBtreePhysicalTree rebuilt)
  let _ ← atStage "rebuild_export_failed" (exportIndexBtreePhysicalTreeImage rebuilt)
  .ok rebuilt

/-! ## Changing the pages above a leaf -/

def isExactLocatorCell (left right : IndexBtreeCell) : Bool :=
  !left.deleted && compareIndexBtreeCellsUnchecked left right == .eq &&
    left.rowUuid.value == right.rowUuid.value &&
    left.versionUuid.value == right.versionUuid.value

def findExactLiveCell (page : IndexBtreePageBody) (cell : IndexBtreeCell) :
    Option Nat := page.cells.findIdx? (isExactLocatorCell · cell)

def stagePageForDelete (page : IndexBtreePageBody) : TreeM Unit := do
  let staged ← stagePage page
  publishPage staged

def reparentGrandchildren (parent : UInt64) : List IndexBtreeCell → TreeM Unit
  | [] => pure ()
  | fence :: rest => do
      let grandchild ← fetchPage fence.childPageNumber
      let staged ← stagePage { grandchild with parentPageNumber := parent }
      publishPage staged
      reparentGrandchildren parent rest

def collapseRootToOnlyChild (root : IndexBtreePageBody) (result : IndexBtreePhysicalDeleteResult) :
    TreeM IndexBtreePhysicalDeleteResult :=
  match root.cells with
  | [fence] =>
    if root.pageKind ≠ .root then pure result
    else do
      let child ← fetchPage fence.childPageNumber
      reparentGrandchildren root.pageNumber (if child.treeLevel > 0 then child.cells else [])
      stagePageForDelete
        { child with
          pageNumber := root.pageNumber
          parentPageNumber := 0
          leftSiblingPageNumber := 0
          rightSiblingPageNumber := 0
          pageKind := .root }
      pure { result with rootCollapsed := true, rootPageNumber := root.pageNumber }
  | _ => pure result

/-- After a parent was stored: a root with one child gives way to it, another
parent's own fence is brought up to date by `climb`. -/
def settleParent (parent : IndexBtreePageBody) (result : IndexBtreePhysicalDeleteResult)
    (climb : IndexBtreePageBody → IndexBtreePhysicalDeleteResult →
      TreeM IndexBtreePhysicalDeleteResult) : TreeM IndexBtreePhysicalDeleteResult := do
  stagePageForDelete parent
  if parent.pageKind = .root ∧ parent.cells.length = 1 ∧ parent.treeLevel > 0 then
    collapseRootToOnlyChild parent result
  else climb parent result

def updateParentAfterLeafMutation :
    List UInt64 → IndexBtreePageBody → IndexBtreePhysicalDeleteResult →
      TreeM IndexBtreePhysicalDeleteResult
  | [], _, result => pure result
  | number :: above, child, result => do
      let parent ← fetchPage number
      match replaceFence child parent.cells with
      | none => parentFenceMissing child.pageNumber
      | some cells =>
        settleParent { parent with cells := sortCells cells } result
          (updateParentAfterLeafMutation above)

def removeChildFenceAndMaybeCollapse (path : List UInt64)
    (keptChild : IndexBtreePageBody) (removedChild : UInt64)
    (result : IndexBtreePhysicalDeleteResult) : TreeM IndexBtreePhysicalDeleteResult :=
  match path with
  | [] => pure result
  | number :: above => do
      let parent ← fetchPage number
      match removeFence removedChild parent.cells with
      | none => parentFenceMissing removedChild
      | some kept =>
        let cells := (replaceFence keptChild kept).getD
          (insertCellSorted kept (fenceCellForPage keptChild))
        settleParent { parent with cells := sortCells cells } result
          (updateParentAfterLeafMutation above)

def rebuildLeafDeleteStructuralCompaction (deletedCell : IndexBtreeCell)
    (deletedLeaf : UInt64) (result : IndexBtreePhysicalDeleteResult) :
    TreeM IndexBtreePhysicalDeleteResult := do
  let tree ← get
  let liveEntries ← ofOutcome (atStage "delete_structural_compaction_collect_failed"
      (collectRepairLiveEntries tree))
  if !liveEntries.any (sameLiveEntry · deletedCell) then
    treeError "SB-INDEX-BTREE-PHYSICAL-DELETE-COMPACTION-ENTRY-MISSING"
      "storage.index_btree_physical.delete_compaction_entry_missing" (toString deletedLeaf.toNat)
  else do
    let rebuilt ← ofOutcome (atStage "delete_structural_compaction_rebuild_failed"
        (rebuildIndexBtreePhysicalTreeFromLiveCells tree
          (liveEntries.eraseP (sameLiveEntry · deletedCell))))
    set rebuilt
    pure { result with
      structuralRebuildPerformed := true
      cleanupPerformed := true
      rootPageNumber := rebuilt.rootPageNumber }

/-! ## Refilling and merging a leaf -/

/-- A sibling without its deleted cells, when there is one. -/
def fetchSibling (sibling : UInt64) : TreeM (Option IndexBtreePageBody) :=
  if sibling = 0 then pure none
  else do
    let page ← fetchPage sibling
    pure (some (removeDeletedCells page))

/-- Two leaves with the same parent, and more than two cells in the lender. -/
def canLend (lender leaf : IndexBtreePageBody) : Bool :=
  sameParentAndLevel lender leaf && 2 < lender.cells.length

def borrowFromLeft (path : List UInt64) (left leaf : IndexBtreePageBody)
    (result : IndexBtreePhysicalDeleteResult) : TreeM IndexBtreePhysicalDeleteResult := do
  let newLeaf := { leaf with cells := sortCells (left.cells.getLast?.toList ++ leaf.cells) }
  let newLeft := { left with cells := sortCells left.cells.dropLast }
  stagePageForDelete newLeft
  stagePageForDelete newLeaf
  let result ← updateParentAfterLeafMutation path newLeft { result with rebalancePerformed := true }
  updateParentAfterLeafMutation path newLeaf result

def borrowFromRight (path : List UInt64) (leaf right : IndexBtreePageBody)
    (result : IndexBtreePhysicalDeleteResult) : TreeM IndexBtreePhysicalDeleteResult := do
  let newLeaf := { leaf with cells := sortCells (leaf.cells ++ right.cells.head?.toList) }
  let newRight := { right with cells := sortCells right.cells.tail }
  stagePageForDelete newLeaf
  stagePageForDelete newRight
  let result ← updateParentAfterLeafMutation path newLeaf { result with rebalancePerformed := true }
  updateParentAfterLeafMutation path newRight result

/-- The second leaf's cells and right link, taken over by the first. -/
def mergedLeaf (kept removed : IndexBtreePageBody) : IndexBtreePageBody :=
  { kept with
    cells := sortCells (kept.cells ++ removed.cells)
    rightSiblingPageNumber := removed.rightSiblingPageNumber }

/-- The merged page is stored and the removed page's fence is taken away. -/
def storeMerged (path : List UInt64) (kept removed : IndexBtreePageBody)
    (staged : IndexBtreePageBodyResult) (result : IndexBtreePhysicalDeleteResult) :
    TreeM IndexBtreePhysicalDeleteResult := do
  let oldRight ← fetchOldRight removed.rightSiblingPageNumber kept.pageNumber
  let stagedOldRight ← stagePages oldRight
  publishPages (staged :: stagedOldRight)
  removeChildFenceAndMaybeCollapse path (mergedLeaf kept removed) removed.pageNumber
    { result with
      mergePerformed := true
      keptPageNumber := kept.pageNumber
      removedPageNumber := removed.pageNumber }

/-- The last resort: the leaf itself has to be storable, and the tree is
rebuilt without the deleted cell. -/
def compactWholeTree (leaf : IndexBtreePageBody) (deletedCell : IndexBtreeCell)
    (result : IndexBtreePhysicalDeleteResult) : TreeM IndexBtreePhysicalDeleteResult := do
  let _ ← stagePage leaf
  rebuildLeafDeleteStructuralCompaction deletedCell leaf.pageNumber result

def mergeWithRight (path : List UInt64) (leaf : IndexBtreePageBody)
    (right : Option IndexBtreePageBody) (deletedCell : IndexBtreeCell)
    (result : IndexBtreePhysicalDeleteResult) : TreeM IndexBtreePhysicalDeleteResult :=
  match right with
  | none => compactWholeTree leaf deletedCell result
  | some right =>
    if !sameParentAndLevel leaf right then
      compactWholeTree leaf deletedCell result
    else do
      let staged ← stagePage (mergedLeaf leaf right)
      storeMerged path leaf right staged result

/-- A left neighbour that cannot take the leaf in leaves the right one. -/
def mergeWithSibling (path : List UInt64) (leaf : IndexBtreePageBody)
    (left right : Option IndexBtreePageBody) (deletedCell : IndexBtreeCell)
    (result : IndexBtreePhysicalDeleteResult) : TreeM IndexBtreePhysicalDeleteResult :=
  match left with
  | none => mergeWithRight path leaf right deletedCell result
  | some left =>
    if !sameParentAndLevel left leaf then
      mergeWithRight path leaf right deletedCell result
    else do
      let tree ← get
      match stagePhysicalPage (mergedLeaf left leaf) tree.pageSize with
      | .ok staged => storeMerged path left leaf staged result
      | .error _ => mergeWithRight path leaf right deletedCell result

def borrowOrMerge (path : List UInt64) (leaf : IndexBtreePageBody)
    (left right : Option IndexBtreePageBody) (deletedCell : IndexBtreeCell)
    (result : IndexBtreePhysicalDeleteResult) : TreeM IndexBtreePhysicalDeleteResult :=
  match left.filter (canLend · leaf), right.filter (canLend · leaf) with
  | some left, _ => borrowFromLeft path left leaf result
  | none, some right => borrowFromRight path leaf right result
  | none, none => mergeWithSibling path leaf left right deletedCell result

def rebalanceOrMergeLeaf (path : List UInt64) (leaf : IndexBtreePageBody)
    (deletedCell : IndexBtreeCell) (result : IndexBtreePhysicalDeleteResult) :
    TreeM IndexBtreePhysicalDeleteResult :=
  if !isUnderfilledNonRoot (removeDeletedCells leaf) then do
    stagePageForDelete (removeDeletedCells leaf)
    updateParentAfterLeafMutation path (removeDeletedCells leaf) result
  else do
    let left ← fetchSibling leaf.leftSiblingPageNumber
    let right ← fetchSibling leaf.rightSiblingPageNumber
    borrowOrMerge path (removeDeletedCells leaf) left right deletedCell result

/-! ## The call -/

def markDeleted (leaf : IndexBtreePageBody) (i : Nat) : IndexBtreePageBody :=
  { leaf with cells := leaf.cells.modify i fun c => { c with deleted := true } }

/-- The leaf with its cell marked, cleaned up once it is nearly empty. -/
def deleteFromLeaf (path : List UInt64) (leaf : IndexBtreePageBody)
    (cell : IndexBtreeCell) (root : UInt64) : TreeM IndexBtreePhysicalDeleteResult :=
  let result : IndexBtreePhysicalDeleteResult :=
    { deleted := true
      tombstoneMarked := true
      rootPageNumber := root
      leafPageNumber := leaf.pageNumber }
  if !isUnderfilledNonRoot leaf && 2 ≤ liveCellCount leaf then do
    stagePageForDelete leaf
    updateParentAfterLeafMutation path leaf result
  else
    let removed := leaf.cells.length - (removeDeletedCells leaf).cells.length
    let result := { result with cleanupPerformed := removed > 0, tombstonesRemoved := removed }
    if leaf.pageKind = .root then do
      stagePageForDelete (removeDeletedCells leaf)
      pure result
    else rebalanceOrMergeLeaf path (removeDeletedCells leaf) cell result

def deleteIndexBtreeCell (cell : IndexBtreeCell) : TreeM IndexBtreePhysicalDeleteResult := do
  let tree ← get
  if tree.rootPageNumber = 0 then
    treeError "SB-INDEX-BTREE-PHYSICAL-TREE-INVALID" "storage.index_btree_physical.tree_invalid"
  else do
    ofOutcome (validatePhysicalPageBody (requestProbe tree cell))
    let (leaf, path) ← ofOutcome (descendFromRoot tree cell)
    ofOutcome (validateDescentPath tree path leaf cell)
    match findExactLiveCell leaf cell with
    | none =>
      treeError "SB-INDEX-BTREE-PHYSICAL-DELETE-NOT-FOUND"
        "storage.index_btree_physical.delete_not_found" (toString leaf.pageNumber.toNat)
    | some i => deleteFromLeaf path (markDeleted leaf i) cell tree.rootPageNumber

end ScratchBird.Btree
