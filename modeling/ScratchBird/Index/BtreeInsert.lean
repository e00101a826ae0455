import ScratchBird.Index.BtreeTree

/-!
# Inserting into the ordered index

`InsertIndexBtreeCell` and what it reaches: splitting a leaf or an internal
page, carrying a split or a changed fence towards the root. A path holds the
pages above the current one, nearest first, so that `path.back()` of the source
is the head and `ParentPath` the tail. Evidence strings are left out of the
results.
-/

namespace ScratchBird.Btree

open Lib

structure IndexBtreePhysicalInsertResult where
  inserted : Bool := false
  splitPerformed : Bool := false
  rootSplitPerformed : Bool := false
  rootPageNumber : UInt64 := 0
  leafPageNumber : UInt64 := 0
  leftPageNumber : UInt64 := 0
  rightPageNumber : UInt64 := 0
  separatorCell : IndexBtreeCell := {}

def bodyTooLarge : String := "SB-INDEX-BTREE-PAGE-BODY-TOO-LARGE"

/-- The first fence of a child, replaced by the child's present one. -/
def replaceFence (child : IndexBtreePageBody) : List IndexBtreeCell → Option (List IndexBtreeCell)
  | [] => none
  | fence :: rest =>
    if fence.childPageNumber = child.pageNumber then
      some (fenceCellForPage child :: rest)
    else (fence :: ·) <$> replaceFence child rest

def parentFenceMissing {α : Type} (child : UInt64) : TreeM α :=
  treeError "SB-INDEX-BTREE-PHYSICAL-PARENT-FENCE-MISSING"
    "storage.index_btree_physical.parent_fence_missing" (toString child.toNat)

/-- The fences of a parent without those of a child, which has to have exactly
one. -/
def removeFence (child : UInt64) (cells : List IndexBtreeCell) : Option (List IndexBtreeCell) :=
  let kept := cells.filter (·.childPageNumber != child)
  if kept.length + 1 = cells.length then some kept else none

def stageChildParentUpdates (parent : UInt64) :
    List IndexBtreeCell → TreeM (List IndexBtreePageBodyResult)
  | [] => pure []
  | fence :: rest => do
      let child ← fetchPage fence.childPageNumber
      let staged ← stagePage { child with parentPageNumber := parent }
      let others ← stageChildParentUpdates parent rest
      pure (staged :: others)

/-- The right sibling of a page with its left link moved, when there is one. -/
def fetchOldRight (rightSibling left : UInt64) : TreeM (List IndexBtreePageBody) :=
  if rightSibling = 0 then pure []
  else do
    let oldRight ← fetchPage rightSibling
    pure [{ oldRight with leftSiblingPageNumber := left }]

def stagePages : List IndexBtreePageBody → TreeM (List IndexBtreePageBodyResult)
  | [] => pure []
  | body :: rest => do
      let staged ← stagePage body
      let others ← stagePages rest
      pure (staged :: others)

def splitRecorded (result : IndexBtreePhysicalInsertResult)
    (root : UInt64) (left right : IndexBtreePageBody) :
    IndexBtreePhysicalInsertResult :=
  { result with
    inserted := true
    splitPerformed := true
    rootPageNumber := root
    leftPageNumber := left.pageNumber
    rightPageNumber := right.pageNumber
    separatorCell := fenceCellForPage left }

def splitOrRefuse (left right : IndexBtreePageBody)
    (cells : List IndexBtreeCell) (code key detail : String) :
    TreeM (IndexBtreePageBody × IndexBtreePageBody) := do
  let tree ← get
  match findSerializableSplitPoint left right cells tree.pageSize with
  | none => treeError code key detail
  | some split =>
    pure ({ left with cells := cells.take split }, { right with cells := cells.drop split })

def splitRootLeaf (root : IndexBtreePageBody) (cells : List IndexBtreeCell) :
    TreeM IndexBtreePhysicalInsertResult := do
  let leftNumber ← takePageNumber
  let rightNumber ← takePageNumber
  let tree ← get
  let (left, right) ← splitOrRefuse
    { indexUuid := tree.indexUuid
      pageNumber := leftNumber
      parentPageNumber := root.pageNumber
      rightSiblingPageNumber := rightNumber
      pageKind := .leaf
      treeLevel := 0 }
    { indexUuid := tree.indexUuid
      pageNumber := rightNumber
      parentPageNumber := root.pageNumber
      leftSiblingPageNumber := leftNumber
      pageKind := .leaf
      treeLevel := 0 }
    cells "SB-INDEX-BTREE-PHYSICAL-CELL-TOO-LARGE"
    "storage.index_btree_physical.cell_too_large" "root_leaf_split"
  let newRoot : IndexBtreePageBody :=
    { root with
      treeLevel := 1
      leftSiblingPageNumber := 0
      rightSiblingPageNumber := 0
      parentPageNumber := 0
      cells := insertCellSorted (insertCellSorted [] (fenceCellForPage left))
        (fenceCellForPage right) }
  let staged ← stagePages [left, right, newRoot]
  publishPages staged
  pure { splitRecorded {} newRoot.pageNumber left right with
    rootSplitPerformed := true }

def internalSplitInvalid : String := "SB-INDEX-BTREE-PHYSICAL-INTERNAL-SPLIT-INVALID"

def splitInternalRoot (page : IndexBtreePageBody) (cells : List IndexBtreeCell)
    (result : IndexBtreePhysicalInsertResult) : TreeM IndexBtreePhysicalInsertResult := do
  let leftNumber ← takePageNumber
  let rightNumber ← takePageNumber
  let tree ← get
  let (left, right) ← splitOrRefuse
    { indexUuid := tree.indexUuid
      pageNumber := leftNumber
      parentPageNumber := page.pageNumber
      rightSiblingPageNumber := rightNumber
      pageKind := .internal
      treeLevel := page.treeLevel }
    { indexUuid := tree.indexUuid
      pageNumber := rightNumber
      parentPageNumber := page.pageNumber
      leftSiblingPageNumber := leftNumber
      pageKind := .internal
      treeLevel := page.treeLevel }
    cells internalSplitInvalid
    "storage.index_btree_physical.internal_split_invalid" "root_internal_split"
  let newRoot : IndexBtreePageBody :=
    { page with
      parentPageNumber := 0
      leftSiblingPageNumber := 0
      rightSiblingPageNumber := 0
      treeLevel := page.treeLevel + 1
      cells := insertCellSorted (insertCellSorted [] (fenceCellForPage left))
        (fenceCellForPage right) }
  let leftChildren ← stageChildParentUpdates left.pageNumber left.cells
  let rightChildren ← stageChildParentUpdates right.pageNumber right.cells
  let staged ← stagePages [left, right, newRoot]
  publishPages (leftChildren ++ rightChildren)
  publishPages staged
  pure { splitRecorded result newRoot.pageNumber left right with
    rootSplitPerformed := true }

/-- `propagate` carries the split to the page above. -/
def splitInternalNonRoot (page : IndexBtreePageBody)
    (cells : List IndexBtreeCell) (result : IndexBtreePhysicalInsertResult)
    (propagate : IndexBtreePageBody → IndexBtreePageBody →
      IndexBtreePhysicalInsertResult → TreeM IndexBtreePhysicalInsertResult) :
    TreeM IndexBtreePhysicalInsertResult := do
  let rightNumber ← takePageNumber
  let tree ← get
  let (left, right) ← splitOrRefuse { page with rightSiblingPageNumber := rightNumber }
    { indexUuid := tree.indexUuid
      pageNumber := rightNumber
      parentPageNumber := page.parentPageNumber
      leftSiblingPageNumber := page.pageNumber
      rightSiblingPageNumber := page.rightSiblingPageNumber
      pageKind := .internal
      treeLevel := page.treeLevel }
    cells internalSplitInvalid
    "storage.index_btree_physical.internal_split_invalid"
    "non_root_internal_split"
  let oldRight ← fetchOldRight page.rightSiblingPageNumber rightNumber
  let leftChildren ← stageChildParentUpdates left.pageNumber left.cells
  let rightChildren ← stageChildParentUpdates right.pageNumber right.cells
  let staged ← stagePages (left :: right :: oldRight)
  publishPages (leftChildren ++ rightChildren)
  publishPages staged
  propagate left right (splitRecorded result tree.rootPageNumber left right)

def splitInternalPage (path : List UInt64) (page : IndexBtreePageBody)
    (cells : List IndexBtreeCell) (result : IndexBtreePhysicalInsertResult)
    (propagate : IndexBtreePageBody → IndexBtreePageBody →
      IndexBtreePhysicalInsertResult → TreeM IndexBtreePhysicalInsertResult) :
    TreeM IndexBtreePhysicalInsertResult :=
  if cells.length < 2 ∨ isInternalLike page = false then
    treeError internalSplitInvalid "storage.index_btree_physical.internal_split_invalid"
      (toString page.pageNumber.toNat)
  else if page.pageKind = .root then
    splitInternalRoot page (sortCells cells) result
  else if path.head? ≠ some page.pageNumber then
    treeError "SB-INDEX-BTREE-PHYSICAL-INTERNAL-PATH-INVALID"
      "storage.index_btree_physical.internal_path_invalid" (toString page.pageNumber.toNat)
  else splitInternalNonRoot page (sortCells cells) result propagate

/-- What `UpdateParentFence` and `PropagateSplit` do with the parent they have
changed: store it and climb on, or, when it no longer fits even without its
deleted cells, split it. -/
def storeParent (path : List UInt64) (parent : IndexBtreePageBody)
    (result : IndexBtreePhysicalInsertResult)
    (climb : IndexBtreePageBody → IndexBtreePhysicalInsertResult →
      TreeM IndexBtreePhysicalInsertResult)
    (propagate : IndexBtreePageBody → IndexBtreePageBody →
      IndexBtreePhysicalInsertResult → TreeM IndexBtreePhysicalInsertResult) :
    TreeM IndexBtreePhysicalInsertResult := do
  let tree ← get
  match stagePhysicalPage parent tree.pageSize with
  | .ok staged => do
      publishPage staged
      climb parent result
  | .error d =>
    if d.diagnosticCode ≠ bodyTooLarge then throw d
    else if hasDeletedCells parent then
      match stagePhysicalPage (removeDeletedCells parent) tree.pageSize with
      | .ok staged => do
          publishPage staged
          climb (removeDeletedCells parent) result
      | .error d =>
        if d.diagnosticCode ≠ bodyTooLarge then throw d
        else
          splitInternalPage path (removeDeletedCells parent)
            (removeDeletedCells parent).cells result propagate
    else splitInternalPage path parent parent.cells result propagate

mutual

def updateParentFence :
    List UInt64 → IndexBtreePageBody → IndexBtreePhysicalInsertResult →
      TreeM IndexBtreePhysicalInsertResult
  | [], _, result => pure result
  | number :: above, child, result => do
      let parent ← fetchPage number
      match replaceFence child parent.cells with
      | none => parentFenceMissing child.pageNumber
      | some cells =>
        storeParent (number :: above) { parent with cells := sortCells cells } result
          (updateParentFence above) (propagateSplit above)

def propagateSplit :
    List UInt64 → IndexBtreePageBody → IndexBtreePageBody →
      IndexBtreePhysicalInsertResult → TreeM IndexBtreePhysicalInsertResult
  | [], left, _, _ =>
    treeError "SB-INDEX-BTREE-PHYSICAL-SPLIT-PARENT-MISSING"
      "storage.index_btree_physical.split_parent_missing" (toString left.pageNumber.toNat)
  | number :: above, left, right, result => do
      let parent ← fetchPage number
      match removeFence left.pageNumber parent.cells with
      | none => parentFenceMissing left.pageNumber
      | some kept =>
        storeParent (number :: above)
          { parent with
            cells := insertCellSorted (insertCellSorted kept (fenceCellForPage left))
              (fenceCellForPage right) } result
          (updateParentFence above) (propagateSplit above)

end

def splitNonRootLeaf (path : List UInt64) (leaf : IndexBtreePageBody)
    (cells : List IndexBtreeCell) : TreeM IndexBtreePhysicalInsertResult := do
  let rightNumber ← takePageNumber
  let tree ← get
  let (left, right) ← splitOrRefuse { leaf with rightSiblingPageNumber := rightNumber }
    { indexUuid := tree.indexUuid
      pageNumber := rightNumber
      parentPageNumber := leaf.parentPageNumber
      leftSiblingPageNumber := leaf.pageNumber
      rightSiblingPageNumber := leaf.rightSiblingPageNumber
      pageKind := .leaf
      treeLevel := 0 }
    cells "SB-INDEX-BTREE-PHYSICAL-CELL-TOO-LARGE"
    "storage.index_btree_physical.cell_too_large" "non_root_leaf_split"
  let oldRight ← fetchOldRight leaf.rightSiblingPageNumber rightNumber
  let staged ← stagePages (left :: right :: oldRight)
  publishPages staged
  propagateSplit path left right (splitRecorded {} tree.rootPageNumber left right)

/-- A page holding only the requested cell: the check a request passes. -/
def requestProbe (tree : IndexBtreePhysicalTree) (cell : IndexBtreeCell) :
    IndexBtreePageBody :=
  { indexUuid := tree.indexUuid
    pageNumber := tree.rootPageNumber
    pageKind := .root
    treeLevel := 0
    cells := [cell] }

/-- The leaf with the new cell in its place. -/
def withCell (leaf : IndexBtreePageBody) (cell : IndexBtreeCell) :
    IndexBtreePageBody :=
  { leaf with cells := insertCellSorted leaf.cells cell }

def insertedAt (tree : IndexBtreePhysicalTree) (leaf : UInt64) :
    IndexBtreePhysicalInsertResult :=
  { inserted := true, rootPageNumber := tree.rootPageNumber, leafPageNumber := leaf }

/-- A candidate leaf that does not fit its page. -/
def splitLeaf (path : List UInt64) (candidate : IndexBtreePageBody) :
    TreeM IndexBtreePhysicalInsertResult :=
  if candidate.cells.length < 2 then
    treeError "SB-INDEX-BTREE-PHYSICAL-CELL-TOO-LARGE"
      "storage.index_btree_physical.cell_too_large" bodyTooLarge
  else if candidate.pageKind = .root ∧ candidate.treeLevel = 0 then
    splitRootLeaf candidate candidate.cells
  else splitNonRootLeaf path candidate candidate.cells

/-- A full leaf with deleted cells is compacted before it is split. -/
def insertCompacted (path : List UInt64) (leaf : IndexBtreePageBody)
    (cell : IndexBtreeCell) : TreeM IndexBtreePhysicalInsertResult := do
  let compacted := removeDeletedCells leaf
  let staged ← stagePage compacted
  publishPage staged
  let tree ← get
  match stagePhysicalPage (withCell compacted cell) tree.pageSize with
  | .ok staged => do
      publishPage staged
      updateParentFence path (withCell compacted cell) (insertedAt tree leaf.pageNumber)
  | .error d =>
    if d.diagnosticCode ≠ bodyTooLarge then throw d
    else splitLeaf path (withCell compacted cell)

def insertIntoLeaf (path : List UInt64) (leaf : IndexBtreePageBody)
    (cell : IndexBtreeCell) : TreeM IndexBtreePhysicalInsertResult := do
  let tree ← get
  match stagePhysicalPage (withCell leaf cell) tree.pageSize with
  | .ok staged => do
      publishPage staged
      updateParentFence path (withCell leaf cell) (insertedAt tree leaf.pageNumber)
  | .error d =>
    if d.diagnosticCode ≠ bodyTooLarge then throw d
    else if hasDeletedCells leaf then insertCompacted path leaf cell
    else splitLeaf path (withCell leaf cell)

def insertIndexBtreeCell (cell : IndexBtreeCell) : TreeM IndexBtreePhysicalInsertResult := do
  let tree ← get
  if tree.rootPageNumber = 0 then
    treeError "SB-INDEX-BTREE-PHYSICAL-TREE-INVALID" "storage.index_btree_physical.tree_invalid"
  else do
    ofOutcome (validatePhysicalPageBody (requestProbe tree cell))
    let (leaf, path) ← ofOutcome (descendFromRoot tree cell)
    ofOutcome (validateDescentPath tree path leaf cell)
    insertIntoLeaf path leaf cell

end ScratchBird.Btree
