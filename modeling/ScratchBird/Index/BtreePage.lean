import ScratchBird.Lib.LittleEndian
import ScratchBird.Index.KeyEncoding
import ScratchBird.Storage.RowDataPage

/-!
# Pages of the ordered index

The page format of `index_btree_page.cpp`: the cells of a page, the order they
stand in, the checks a page body passes, and the image a body is laid out to and
read back from. Page numbers, levels and ordinals keep the width they have in
the source. Sizes are natural numbers: the source adds them up in `u32`, and a
body of four gigabytes or more, where that sum wraps, is written past the end of
its buffer, so such bodies have no image to model.

A cell's `key_value` is neither written nor compared, and is left out. A stored
cell without the encoded-key flag is read as a cell with no key, which the last
check of the parser refuses; that the datatype decoder may refuse it earlier
with its own diagnostic is left out.
-/

namespace ScratchBird.Btree

open Lib
open Index (Bytes)
open Storage (isTypedEngineIdentity kPageHeaderSerializedBytes)

inductive IndexBtreePageKind where
  | root | internal | leaf | unknown
  deriving DecidableEq

def IndexBtreePageKind.code : IndexBtreePageKind → Nat
  | .root => 1
  | .internal => 2
  | .leaf => 3
  | .unknown => 0xffff

def IndexBtreePageKind.ofCode (code : Nat) : IndexBtreePageKind :=
  if code = 1 then .root
  else if code = 2 then .internal
  else if code = 3 then .leaf
  else .unknown

structure IndexBtreeCell where
  keyOrdinal : UInt16 := 0
  encodedKey : Bytes := []
  rowUuid : TypedUuid := {}
  versionUuid : TypedUuid := {}
  childPageNumber : UInt64 := 0
  highKey : Bool := false
  deleted : Bool := false
  deriving DecidableEq

structure IndexBtreePageBody where
  indexUuid : TypedUuid := {}
  pageNumber : UInt64 := 0
  parentPageNumber : UInt64 := 0
  leftSiblingPageNumber : UInt64 := 0
  rightSiblingPageNumber : UInt64 := 0
  freeSpaceBytes : UInt32 := 0
  treeLevel : UInt16 := 0
  pageKind : IndexBtreePageKind := .unknown
  cells : List IndexBtreeCell := []
  deriving DecidableEq

/-- The outcome of building or parsing a page. -/
structure IndexBtreePageBodyResult where
  body : IndexBtreePageBody
  serialized : Bytes

def kIndexBtreePageBodyHeaderBytes : Nat := 96
def kCellHeaderBytes : Nat := 64
def kIndexBtreeMagic : Bytes := [83, 66, 73, 68, 88, 48, 48, 49]
def kIndexBtreeMagicPrefix : Bytes := [83, 66, 73, 68, 88]
def kOrderPreservingKeyMagic : Bytes := [83, 66, 75, 79]
def kUnsafeLegacyKeyMagic : Bytes := [83, 66, 75, 49]

def kOffsetMagic : Nat := 0
def kOffsetHeaderBytes : Nat := 8
def kOffsetCellCount : Nat := 12
def kOffsetBodyBytes : Nat := 16
def kOffsetBodyChecksum : Nat := 24
def kOffsetIndexUuid : Nat := 32
def kOffsetPageKind : Nat := 48
def kOffsetTreeLevel : Nat := 50
def kOffsetLeftSibling : Nat := 56
def kOffsetRightSibling : Nat := 64
def kOffsetParentPage : Nat := 72
def kOffsetPageNumber : Nat := 80
def kOffsetFreeSpaceBytes : Nat := 88

def kCellOffsetFlags : Nat := 0
def kCellOffsetKeyOrdinal : Nat := 2
def kCellOffsetPayloadBytes : Nat := 4
def kCellOffsetPayloadChecksum : Nat := 8
def kCellOffsetChildPageNumber : Nat := 16
def kCellOffsetRowUuid : Nat := 24
def kCellOffsetVersionUuid : Nat := 40

def makeIndexBtreePageDiagnostic (code key : String) (detail : String := "") :
    DiagnosticRecord :=
  { diagnosticCode := code
    messageKey := key
    detail
    sourceComponent := "storage.page.index_btree" }

def indexPageError {α : Type} (code key : String) (detail : String := "") :
    Except DiagnosticRecord α := .error (makeIndexBtreePageDiagnostic code key detail)

/-! ## Checks -/

def isKnownPageKind (kind : IndexBtreePageKind) : Bool :=
  kind == .root || kind == .internal || kind == .leaf

def isInternalLike (body : IndexBtreePageBody) : Bool :=
  body.pageKind == .internal || (body.pageKind == .root && body.treeLevel > 0)

def isLeafLike (body : IndexBtreePageBody) : Bool :=
  body.pageKind == .leaf || (body.pageKind == .root && body.treeLevel == 0)

def generatedRowUuid (uuid : TypedUuid) : Bool := isTypedEngineIdentity uuid .row

def isOrderPreservingEncodedKey (bytes : Bytes) : Bool := kOrderPreservingKeyMagic.isPrefixOf bytes

def hasIndexBtreeMagicPrefix (serialized : Bytes) : Bool :=
  kIndexBtreeMagicPrefix.isPrefixOf serialized

def isUnsafeLegacyEncodedKey (bytes : Bytes) : Bool := kUnsafeLegacyKeyMagic.isPrefixOf bytes

/-- Unsigned bytes from an offset on; a proper prefix comes first. -/
def compareUnsignedBytes (left right : Bytes) (offset : Nat) : Ordering :=
  compare (left.drop offset) (right.drop offset)

def compareUuid128 (left right : Uuid) : Ordering := compare left.bytes right.bytes

def compareEncodedKeysOnly (left right : Bytes) : Ordering :=
  compareUnsignedBytes left right kOrderPreservingKeyMagic.length

def compareIndexBtreeCellsUnchecked (left right : IndexBtreeCell) : Ordering :=
  (compareEncodedKeysOnly left.encodedKey right.encodedKey).then
    ((compareUuid128 left.rowUuid.value right.rowUuid.value).then
      (compareUuid128 left.versionUuid.value right.versionUuid.value))

def validateEncodedKey (cell : IndexBtreeCell) (cellIndex : Nat) : Except DiagnosticRecord Unit :=
  if cell.encodedKey = [] then
    indexPageError "SB-INDEX-BTREE-PAGE-ENCODED-KEY-MISSING"
      "storage.index_btree_page.encoded_key_missing" (toString cellIndex)
  else if isUnsafeLegacyEncodedKey cell.encodedKey then
    indexPageError "SB-INDEX-BTREE-PAGE-UNSAFE-LEGACY-KEY"
      "storage.index_btree_page.unsafe_legacy_key_refused" (toString cellIndex)
  else if !isOrderPreservingEncodedKey cell.encodedKey then
    indexPageError "SB-INDEX-BTREE-PAGE-KEY-ENVELOPE-INVALID"
      "storage.index_btree_page.key_envelope_invalid" (toString cellIndex)
  else .ok ()

/-- The checks on one cell that do not look at its neighbour. -/
def validateCellFields (internalLike : Bool) (i : Nat) (cell : IndexBtreeCell) :
    Except DiagnosticRecord Unit :=
  if !generatedRowUuid cell.rowUuid then
    indexPageError "SB-INDEX-BTREE-PAGE-ROW-UUID-MUST-BE-V7"
      "storage.index_btree_page.row_uuid_must_be_v7" (toString i)
  else if !generatedRowUuid cell.versionUuid then
    indexPageError "SB-INDEX-BTREE-PAGE-VERSION-UUID-MUST-BE-V7"
      "storage.index_btree_page.version_uuid_must_be_v7" (toString i)
  else if internalLike && (!cell.highKey || cell.childPageNumber == 0) then
    indexPageError "SB-INDEX-BTREE-PAGE-INTERNAL-FENCE-INVALID"
      "storage.index_btree_page.internal_fence_invalid" (toString i)
  else if !internalLike && (cell.highKey || cell.childPageNumber != 0) then
    indexPageError "SB-INDEX-BTREE-PAGE-LEAF-CELL-INVALID"
      "storage.index_btree_page.leaf_cell_invalid" (toString i)
  else .ok ()

/-- Whether a cell stands before the one that precedes it on the page. -/
def unsortedAfter (previous : Option IndexBtreeCell) (cell : IndexBtreeCell) :
    Bool :=
  match previous with
  | none => false
  | some p => compareIndexBtreeCellsUnchecked p cell == .gt

def validateCells (internalLike : Bool) :
    Nat → Option IndexBtreeCell → List IndexBtreeCell → Except DiagnosticRecord Unit
  | _, _, [] => .ok ()
  | i, previous, cell :: rest => do
      validateEncodedKey cell i
      validateCellFields internalLike i cell
      if unsortedAfter previous cell then
        indexPageError "SB-INDEX-BTREE-PAGE-CELLS-UNSORTED"
          "storage.index_btree_page.cells_unsorted" (toString i)
      else validateCells internalLike (i + 1) (some cell) rest

def validatePhysicalPageBody (body : IndexBtreePageBody) : Except DiagnosticRecord Unit :=
  if body.pageNumber = 0 then
    indexPageError "SB-INDEX-BTREE-PAGE-NUMBER-REQUIRED"
      "storage.index_btree_page.page_number_required"
  else if !isKnownPageKind body.pageKind then
    indexPageError "SB-INDEX-BTREE-PAGE-KIND-INVALID"
      "storage.index_btree_page.kind_invalid" (toString body.pageKind.code)
  else if !isLeafLike body && !isInternalLike body then
    indexPageError "SB-INDEX-BTREE-PAGE-LEVEL-KIND-MISMATCH"
      "storage.index_btree_page.level_kind_mismatch" (toString body.pageNumber.toNat)
  else validateCells (isInternalLike body) 0 none body.cells

/-! ## The image of a page -/

def fnv1a64 (data : Bytes) : UInt64 :=
  data.foldl (fun hash b => (hash ^^^ b.toUInt64) * 1099511628211) 1469598103934665603

/-- The checksum is taken with its own field set to zero. -/
def computeIndexBtreePageChecksum (body : Bytes) : UInt64 :=
  if kOffsetBodyChecksum + 8 ≤ body.length then
    fnv1a64 (body.take kOffsetBodyChecksum ++
      (List.replicate 8 0 ++ body.drop (kOffsetBodyChecksum + 8)))
  else fnv1a64 body

def flagsFor (cell : IndexBtreeCell) : UInt16 :=
  (if cell.highKey then 1 else 0) ||| (if cell.deleted then 2 else 0) |||
    (if cell.encodedKey = [] then 0 else 4)

def storedUuid (uuid : TypedUuid) : Bytes :=
  if uuid.valid then uuid.value.bytes else List.replicate 16 0

/-- One cell: its fields in the order of their offsets, then the key. -/
def serializeCell (cell : IndexBtreeCell) : Bytes :=
  List.flatten [ littleBytes 2 (flagsFor cell).toNat , littleBytes 2 cell.keyOrdinal.toNat
    , littleBytes 4 cell.encodedKey.length , littleBytes 8 (fnv1a64 cell.encodedKey).toNat
    , littleBytes 8 cell.childPageNumber.toNat , storedUuid cell.rowUuid
    , storedUuid cell.versionUuid , List.replicate 8 0 , cell.encodedKey ]

def bodyBytes (cells : List IndexBtreeCell) : Nat :=
  kIndexBtreePageBodyHeaderBytes +
    (cells.map fun cell => kCellHeaderBytes + cell.encodedKey.length).sum

/-- The header fields in the order of their offsets. -/
def serializeHeader (body : IndexBtreePageBody) (freeSpaceBytes : Nat)
    (checksum : UInt64) : Bytes :=
  List.flatten [ kIndexBtreeMagic , littleBytes 4 kIndexBtreePageBodyHeaderBytes
    , littleBytes 4 body.cells.length , littleBytes 4 (bodyBytes body.cells) , List.replicate 4 0
    , littleBytes 8 checksum.toNat , body.indexUuid.value.bytes , littleBytes 2 body.pageKind.code
    , littleBytes 2 body.treeLevel.toNat , List.replicate 4 0
    , littleBytes 8 body.leftSiblingPageNumber.toNat
    , littleBytes 8 body.rightSiblingPageNumber.toNat , littleBytes 8 body.parentPageNumber.toNat
    , littleBytes 8 body.pageNumber.toNat , littleBytes 4 freeSpaceBytes , List.replicate 4 0 ]

def serializeBody (body : IndexBtreePageBody) (freeSpaceBytes : Nat) (checksum : UInt64) : Bytes :=
  serializeHeader body freeSpaceBytes checksum ++
    (body.cells.flatMap serializeCell ++ List.replicate freeSpaceBytes 0)

def buildIndexBtreePageBody (body : IndexBtreePageBody) (pageSize : UInt32) :
    Except DiagnosticRecord IndexBtreePageBodyResult :=
  if pageSize.toNat ≤ kPageHeaderSerializedBytes + kIndexBtreePageBodyHeaderBytes then
    indexPageError "SB-INDEX-BTREE-PAGE-SIZE-TOO-SMALL"
      "storage.index_btree_page.page_size_too_small" (toString pageSize.toNat)
  else if !isTypedEngineIdentity body.indexUuid .object then
    indexPageError "SB-INDEX-BTREE-PAGE-INDEX-UUID-MUST-BE-V7"
      "storage.index_btree_page.index_uuid_must_be_v7"
  else do
    validatePhysicalPageBody body
    if pageSize.toNat - kPageHeaderSerializedBytes < bodyBytes body.cells then
      indexPageError "SB-INDEX-BTREE-PAGE-BODY-TOO-LARGE" "storage.index_btree_page.body_too_large"
        (toString (bodyBytes body.cells))
    else
      let free := pageSize.toNat - kPageHeaderSerializedBytes - bodyBytes body.cells
      let checksum := computeIndexBtreePageChecksum (serializeBody body free 0)
      .ok
        { body := { body with freeSpaceBytes := UInt32.ofNat free }
          serialized := serializeBody body free checksum }

/-! ## Reading an image back -/

def loadLittle (image : Bytes) (offset width : Nat) : Nat :=
  littleValue (bytesAt image offset width)

def loadUuid (image : Bytes) (offset : Nat) : Uuid :=
  if h : (bytesAt image offset 16).length = 16 then ⟨_, h⟩ else Uuid.nil

/-- A stored identity: absent when its bytes are all zero. -/
def parseRowUuid (image : Bytes) (offset : Nat) (code key : String)
    (cellIndex : Nat) : Except DiagnosticRecord TypedUuid :=
  let uuid := loadUuid image offset
  if uuid.isNil then .ok {}
  else if !isTypedEngineIdentity ⟨.row, uuid⟩ .row then
    indexPageError code key (toString cellIndex)
  else .ok ⟨.row, uuid⟩

def checkStoredKey (flags : UInt16) (cell : IndexBtreeCell) (cellIndex : Nat) :
    Except DiagnosticRecord Unit :=
  if flags &&& 4 != 0 then validateEncodedKey cell cellIndex else .ok ()

/-- One cell at an offset, and the offset behind it. -/
def parseCell (image : Bytes) (bodyBytes cellIndex offset : Nat) :
    Except DiagnosticRecord (IndexBtreeCell × Nat) :=
  if bodyBytes < offset + kCellHeaderBytes then
    indexPageError "SB-INDEX-BTREE-PAGE-CELL-SHORT"
      "storage.index_btree_page.cell_short" (toString cellIndex)
  else do
    let flags := UInt16.ofNat (loadLittle image (offset + kCellOffsetFlags) 2)
    let payloadBytes := loadLittle image (offset + kCellOffsetPayloadBytes) 4
    let rowUuid ← parseRowUuid image (offset + kCellOffsetRowUuid)
      "SB-INDEX-BTREE-PAGE-ROW-UUID-MUST-BE-V7"
      "storage.index_btree_page.row_uuid_must_be_v7" cellIndex
    let versionUuid ← parseRowUuid image (offset + kCellOffsetVersionUuid)
      "SB-INDEX-BTREE-PAGE-VERSION-UUID-MUST-BE-V7"
      "storage.index_btree_page.version_uuid_must_be_v7" cellIndex
    let encoded := bytesAt image (offset + kCellHeaderBytes) payloadBytes
    let cell : IndexBtreeCell :=
      { keyOrdinal := UInt16.ofNat (loadLittle image (offset + kCellOffsetKeyOrdinal) 2)
        encodedKey := if flags &&& 4 != 0 then encoded else []
        rowUuid
        versionUuid
        childPageNumber := UInt64.ofNat (loadLittle image (offset + kCellOffsetChildPageNumber) 8)
        highKey := flags &&& 1 != 0
        deleted := flags &&& 2 != 0 }
    if bodyBytes < offset + kCellHeaderBytes + payloadBytes then
      indexPageError "SB-INDEX-BTREE-PAGE-PAYLOAD-SHORT"
        "storage.index_btree_page.payload_short" (toString cellIndex)
    else if UInt64.ofNat (loadLittle image (offset + kCellOffsetPayloadChecksum) 8) !=
        fnv1a64 encoded then
      indexPageError "SB-INDEX-BTREE-PAGE-PAYLOAD-CHECKSUM-MISMATCH"
        "storage.index_btree_page.payload_checksum_mismatch" (toString cellIndex)
    else do
      checkStoredKey flags cell cellIndex
      .ok (cell, offset + kCellHeaderBytes + payloadBytes)

def parseCells (image : Bytes) (bodyBytes : Nat) :
    Nat → Nat → Nat → Except DiagnosticRecord (List IndexBtreeCell × Nat)
  | 0, _, offset => .ok ([], offset)
  | count + 1, cellIndex, offset => do
      let (cell, next) ← parseCell image bodyBytes cellIndex offset
      let (cells, last) ← parseCells image bodyBytes count (cellIndex + 1) next
      .ok (cell :: cells, last)

/-- The header checks that come before any field is kept. -/
def checkPageHeader (serialized : Bytes) (pageNumber : UInt64) : Except DiagnosticRecord Unit :=
  let bodyBytes := loadLittle serialized kOffsetBodyBytes 4
  if serialized.length < kIndexBtreePageBodyHeaderBytes then
    indexPageError "SB-INDEX-BTREE-PAGE-BODY-SHORT"
      "storage.index_btree_page.body_short" (toString pageNumber.toNat)
  else if bytesAt serialized kOffsetMagic 8 ≠ kIndexBtreeMagic then
    if hasIndexBtreeMagicPrefix serialized then
      indexPageError "SB-INDEX-BTREE-PAGE-FORMAT-UNSUPPORTED"
        "storage.index_btree_page.format_unsupported" (toString pageNumber.toNat)
    else
      indexPageError "SB-INDEX-BTREE-PAGE-MAGIC-INVALID"
        "storage.index_btree_page.magic_invalid" (toString pageNumber.toNat)
  else if loadLittle serialized kOffsetHeaderBytes 4 ≠ kIndexBtreePageBodyHeaderBytes then
    indexPageError "SB-INDEX-BTREE-PAGE-HEADER-SIZE-INVALID"
      "storage.index_btree_page.header_size_invalid" (toString pageNumber.toNat)
  else if UInt64.ofNat (loadLittle serialized kOffsetBodyChecksum 8) ≠
      computeIndexBtreePageChecksum serialized then
    indexPageError "SB-INDEX-BTREE-PAGE-CHECKSUM-MISMATCH"
      "storage.index_btree_page.checksum_mismatch" (toString pageNumber.toNat)
  else if serialized.length < bodyBytes ∨ bodyBytes < kIndexBtreePageBodyHeaderBytes then
    indexPageError "SB-INDEX-BTREE-PAGE-BODY-SIZE-INVALID"
      "storage.index_btree_page.body_size_invalid" (toString pageNumber.toNat)
  else if loadLittle serialized kOffsetFreeSpaceBytes 4 ≠ serialized.length - bodyBytes then
    indexPageError "SB-INDEX-BTREE-PAGE-FREE-SPACE-INVALID"
      "storage.index_btree_page.free_space_invalid" (toString pageNumber.toNat)
  else .ok ()

/-- A page that carries no number of its own takes the one it is asked for. -/
def storedPageNumber (serialized : Bytes) (pageNumber : UInt64) : UInt64 :=
  let stored := UInt64.ofNat (loadLittle serialized kOffsetPageNumber 8)
  if stored = 0 then pageNumber else stored

/-- The fields of the header; the cells are read separately. -/
def parseHeaderFields (serialized : Bytes) (pageNumber : UInt64) :
    Except DiagnosticRecord IndexBtreePageBody :=
  let body : IndexBtreePageBody :=
    { indexUuid := ⟨.object, loadUuid serialized kOffsetIndexUuid⟩
      pageNumber := storedPageNumber serialized pageNumber
      parentPageNumber := UInt64.ofNat (loadLittle serialized kOffsetParentPage 8)
      leftSiblingPageNumber := UInt64.ofNat (loadLittle serialized kOffsetLeftSibling 8)
      rightSiblingPageNumber := UInt64.ofNat (loadLittle serialized kOffsetRightSibling 8)
      freeSpaceBytes := UInt32.ofNat (loadLittle serialized kOffsetFreeSpaceBytes 4)
      treeLevel := UInt16.ofNat (loadLittle serialized kOffsetTreeLevel 2)
      pageKind := .ofCode (loadLittle serialized kOffsetPageKind 2) }
  if body.pageNumber ≠ pageNumber then
    indexPageError "SB-INDEX-BTREE-PAGE-NUMBER-MISMATCH"
      "storage.index_btree_page.page_number_mismatch" (toString pageNumber.toNat)
  else if !isTypedEngineIdentity body.indexUuid .object then
    indexPageError "SB-INDEX-BTREE-PAGE-INDEX-UUID-MUST-BE-V7"
      "storage.index_btree_page.index_uuid_must_be_v7" (toString pageNumber.toNat)
  else if !isKnownPageKind body.pageKind then
    indexPageError "SB-INDEX-BTREE-PAGE-KIND-INVALID"
      "storage.index_btree_page.kind_invalid" (toString pageNumber.toNat)
  else .ok body

def parseIndexBtreePageBody (serialized : Bytes) (pageNumber : UInt64) :
    Except DiagnosticRecord IndexBtreePageBodyResult := do
  checkPageHeader serialized pageNumber
  let header ← parseHeaderFields serialized pageNumber
  let (cells, last) ← parseCells serialized (loadLittle serialized kOffsetBodyBytes 4)
    (loadLittle serialized kOffsetCellCount 4) 0 kIndexBtreePageBodyHeaderBytes
  if last ≠ loadLittle serialized kOffsetBodyBytes 4 then
    indexPageError "SB-INDEX-BTREE-PAGE-BODY-TRAILING-BYTES"
      "storage.index_btree_page.body_trailing_bytes" (toString pageNumber.toNat)
  else do
    validatePhysicalPageBody { header with cells := cells }
    .ok { body := { header with cells := cells }, serialized := serialized }

/-- An index and a cell to run examples with: the key is what follows the
envelope, and `n` tells rows and versions apart. -/
def sampleIndex : TypedUuid := ⟨.object, engineUuid 1⟩

def sampleCell (key : Bytes) (n : UInt8) : IndexBtreeCell :=
  { encodedKey := kOrderPreservingKeyMagic ++ key
    rowUuid := ⟨.row, engineUuid n⟩
    versionUuid := ⟨.row, engineUuid n⟩ }

/-- A leaf of two cells, of which the second is deleted. -/
def twoCellLeaf : IndexBtreePageBody :=
  { indexUuid := sampleIndex, pageNumber := 7, pageKind := .leaf
    cells := [sampleCell [1] 1, { sampleCell [2, 0] 2 with deleted := true }] }

end ScratchBird.Btree
