import ScratchBird.Index.BtreePage
import ScratchBird.Lib.Stateful

/-!
# The ordered index as a set of page images

The tree of `index_btree_page.cpp`: images of pages under their numbers, the
number of the root and the next free number. Pages are fetched by parsing their
image, staged by building one and parsing it back, and published by replacing
the image of the same number. The latches of the source serialise the calls on
one tree; a call here runs alone.
-/

namespace ScratchBird.Btree

open Lib
open Index (Bytes)

structure IndexBtreePhysicalPageImage where
  pageNumber : UInt64
  serialized : Bytes
  deriving DecidableEq

structure IndexBtreePhysicalTree where
  pageSize : UInt32 := 0
  indexUuid : TypedUuid := {}
  rootPageNumber : UInt64 := 0
  nextPageNumber : UInt64 := 1
  pages : List IndexBtreePhysicalPageImage := []
  deriving DecidableEq

def fetchIndexBtreePhysicalPage (tree : IndexBtreePhysicalTree)
    (pageNumber : UInt64) : Except DiagnosticRecord IndexBtreePageBody :=
  match tree.pages.find? (·.pageNumber == pageNumber) with
  | none =>
    indexPageError "SB-INDEX-BTREE-PHYSICAL-PAGE-NOT-FOUND"
      "storage.index_btree_physical.page_not_found" (toString pageNumber.toNat)
  | some image => (·.body) <$> parseIndexBtreePageBody image.serialized pageNumber

def stagePhysicalPage (body : IndexBtreePageBody) (pageSize : UInt32) :
    Except DiagnosticRecord IndexBtreePageBodyResult := do
  let built ← buildIndexBtreePageBody body pageSize
  let parsed ← parseIndexBtreePageBody built.serialized body.pageNumber
  .ok { parsed with serialized := built.serialized }

/-- The image of the same number is replaced, a new one goes to the end. -/
def publishImage (image : IndexBtreePhysicalPageImage) :
    List IndexBtreePhysicalPageImage → List IndexBtreePhysicalPageImage
  | [] => [image]
  | i :: rest =>
    if i.pageNumber = image.pageNumber then image :: rest
    else i :: publishImage image rest

def publishStagedPage (tree : IndexBtreePhysicalTree)
    (staged : IndexBtreePageBodyResult) : IndexBtreePhysicalTree :=
  { tree with
    pages := publishImage ⟨staged.body.pageNumber, staged.serialized⟩ tree.pages }

/-! ## Cells of a page -/

def lastLiveCell (page : IndexBtreePageBody) : Option IndexBtreeCell :=
  page.cells.reverse.find? (!·.deleted)

def firstLiveCell (page : IndexBtreePageBody) : Option IndexBtreeCell :=
  page.cells.find? (!·.deleted)

def fenceCellForPage (child : IndexBtreePageBody) : IndexBtreeCell :=
  { (lastLiveCell child).getD {} with
    childPageNumber := child.pageNumber
    highKey := true
    deleted := false }

/-- The negation of the strict order the source sorts by. -/
def notBefore (a b : IndexBtreeCell) : Prop := compareIndexBtreeCellsUnchecked b a ≠ .lt

instance (a b : IndexBtreeCell) : Decidable (notBefore a b) := inferInstanceAs (Decidable (_ ≠ _))

/-- Insertion at the lower bound: before the first cell that is not less. -/
def insertCellSorted (cells : List IndexBtreeCell) (cell : IndexBtreeCell) :
    List IndexBtreeCell := cells.orderedInsert notBefore cell

/-- `std::sort` leaves the order of equal cells open; here it is kept. -/
def sortCells (cells : List IndexBtreeCell) : List IndexBtreeCell := cells.insertionSort notBefore

def removeDeletedCells (page : IndexBtreePageBody) : IndexBtreePageBody :=
  { page with cells := page.cells.filter (!·.deleted) }

def liveCellCount (page : IndexBtreePageBody) : Nat := page.cells.countP (!·.deleted)

def hasDeletedCells (page : IndexBtreePageBody) : Bool := liveCellCount page != page.cells.length

def sameParentAndLevel (left right : IndexBtreePageBody) : Bool :=
  left.parentPageNumber == right.parentPageNumber &&
    left.treeLevel == right.treeLevel && left.pageKind == right.pageKind

def isUnderfilledNonRoot (page : IndexBtreePageBody) : Bool :=
  page.pageKind != .root && liveCellCount page < 2

/-! ## Where to split and where to descend -/

def splitFits (left right : IndexBtreePageBody) (cells : List IndexBtreeCell)
    (pageSize : UInt32) (split : Nat) : Bool :=
  (buildIndexBtreePageBody { left with cells := cells.take split } pageSize).isOk &&
  (buildIndexBtreePageBody { right with cells := cells.drop split } pageSize).isOk

def splitDistance (midpoint split : Nat) : Nat :=
  if midpoint < split then split - midpoint else midpoint - split

def closerSplit (midpoint : Nat) (best : Option Nat) (split : Nat) : Option Nat :=
  match best with
  | none => some split
  | some b =>
    if splitDistance midpoint split < splitDistance midpoint b then some split
    else some b

/-- Of the splits whose halves can both be built, the first that is closest to
the middle. The source stops at distance zero, where nothing is closer. -/
def findSerializableSplitPoint (left right : IndexBtreePageBody)
    (cells : List IndexBtreeCell) (pageSize : UInt32) : Option Nat :=
  if cells.length < 2 then none
  else
    ((List.range' 1 (cells.length - 1)).filter (splitFits left right cells pageSize)).foldl
        (closerSplit (cells.length / 2)) none

def selectChildPage (parent : IndexBtreePageBody) (key : IndexBtreeCell) :
    UInt64 :=
  match parent.cells.find? (fun fence => (compareIndexBtreeCellsUnchecked key fence).isLE) with
  | some fence => fence.childPageNumber
  | none =>
    match parent.cells.getLast? with
    | none => 0
    | some fence => fence.childPageNumber

/-- Descent from a page to the leaf a key belongs to. The path holds the pages
passed, nearest first. The loop of the source has no bound of its own; a tree
whose pages form a cycle exhausts the fuel here. -/
def descend (tree : IndexBtreePhysicalTree) (key : IndexBtreeCell) :
    Nat → IndexBtreePageBody → List UInt64 →
      Except DiagnosticRecord (IndexBtreePageBody × List UInt64)
  | 0, _, _ => indexPageError "" "storage.index_btree_physical.descent_does_not_end"
  | fuel + 1, page, path =>
    if !isInternalLike page then .ok (page, path)
    else if selectChildPage page key = 0 then
      indexPageError "SB-INDEX-BTREE-PHYSICAL-CHILD-MISSING"
        "storage.index_btree_physical.child_missing" (toString page.pageNumber.toNat)
    else do
      let child ← fetchIndexBtreePhysicalPage tree (selectChildPage page key)
      descend tree key fuel child (page.pageNumber :: path)

def descendFromRoot (tree : IndexBtreePhysicalTree) (key : IndexBtreeCell) :
    Except DiagnosticRecord (IndexBtreePageBody × List UInt64) := do
  let root ← fetchIndexBtreePhysicalPage tree tree.rootPageNumber
  descend tree key (tree.pages.length + 1) root []

def descentStale (pageNumber : UInt64) : Except DiagnosticRecord UInt64 :=
  indexPageError "SB-INDEX-BTREE-PHYSICAL-DESCENT-STALE"
    "storage.index_btree_physical.descent_stale" (toString pageNumber.toNat)

/-- The path of a descent, root first, read again page by page. The result is
the number the leaf has to name as its parent. -/
def validateDescentSteps (tree : IndexBtreePhysicalTree) (key : IndexBtreeCell) (leaf : UInt64) :
    UInt64 → List UInt64 → Except DiagnosticRecord UInt64
  | expectedParent, [] => .ok expectedParent
  | expectedParent, number :: rest => do
      let parent ← fetchIndexBtreePhysicalPage tree number
      let expectedChild := rest.headD leaf
      if !isInternalLike parent || parent.parentPageNumber != expectedParent then
        descentStale number
      else if selectChildPage parent key ≠ expectedChild then
        descentStale number
      else if !parent.cells.any (fun fence =>
          fence.highKey && fence.childPageNumber == expectedChild) then
        indexPageError "SB-INDEX-BTREE-PHYSICAL-DESCENT-FENCE-MISSING"
          "storage.index_btree_physical.descent_fence_missing" (toString expectedChild.toNat)
      else validateDescentSteps tree key leaf number rest

def validateDescentPath (tree : IndexBtreePhysicalTree) (path : List UInt64)
    (leaf : IndexBtreePageBody) (key : IndexBtreeCell) : Except DiagnosticRecord Unit :=
  if !isLeafLike leaf then
    indexPageError "SB-INDEX-BTREE-PHYSICAL-DESCENT-LEAF-INVALID"
      "storage.index_btree_physical.descent_leaf_invalid" (toString leaf.pageNumber.toNat)
  else do
    let expectedParent ←
      validateDescentSteps tree key leaf.pageNumber 0 path.reverse
    if leaf.parentPageNumber ≠ expectedParent then
      indexPageError "SB-INDEX-BTREE-PHYSICAL-DESCENT-PARENT-MISMATCH"
        "storage.index_btree_physical.descent_parent_mismatch" (toString leaf.pageNumber.toNat)
    else .ok ()

/-! ## Steps on a tree -/

/-- A call on a tree: on refusal the pages published so far stay. -/
abbrev TreeM := ExceptT DiagnosticRecord (StateM IndexBtreePhysicalTree)

def treeError {α : Type} (code key : String) (detail : String := "") : TreeM α :=
  throw (makeIndexBtreePageDiagnostic code key detail)

def fetchPage (pageNumber : UInt64) : TreeM IndexBtreePageBody := do
  let tree ← get
  ofOutcome (fetchIndexBtreePhysicalPage tree pageNumber)

def stagePage (body : IndexBtreePageBody) : TreeM IndexBtreePageBodyResult := do
  let tree ← get
  ofOutcome (stagePhysicalPage body tree.pageSize)

def publishPage (staged : IndexBtreePageBodyResult) : TreeM Unit := do
  let tree ← get
  set (publishStagedPage tree staged)

def publishPages : List IndexBtreePageBodyResult → TreeM Unit
  | [] => pure ()
  | staged :: rest => do
      publishPage staged
      publishPages rest

/-- `next_page_number++`. -/
def takePageNumber : TreeM UInt64 := do
  let tree ← get
  set { tree with nextPageNumber := tree.nextPageNumber + 1 }
  pure tree.nextPageNumber

def initializeIndexBtreePhysicalTree (indexUuid : TypedUuid)
    (pageSize : UInt32) : Except DiagnosticRecord IndexBtreePhysicalTree :=
  if !Storage.isTypedEngineIdentity indexUuid .object then
    indexPageError "SB-INDEX-BTREE-PHYSICAL-INDEX-UUID-MUST-BE-V7"
      "storage.index_btree_physical.index_uuid_must_be_v7"
  else
    match stagePhysicalPage
      { indexUuid, pageNumber := 1, pageKind := .root, treeLevel := 0 } pageSize with
    | .error d => indexPageError d.diagnosticCode d.messageKey
    | .ok staged =>
      .ok (publishStagedPage
        { pageSize, indexUuid, rootPageNumber := 1, nextPageNumber := 2 } staged)

end ScratchBird.Btree
