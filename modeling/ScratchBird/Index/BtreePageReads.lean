import ScratchBird.Index.BtreePage
import ScratchBird.Lib.ImageReader

/-!
# Parsing a page of the ordered index, with its reads

`ParseIndexBtreePageBody` again, this time in the 32-bit arithmetic of the
source and with a record of every load and copy it makes of the image, in the
order it makes them. Offsets into the page are 32-bit numbers: `offset +
payload_bytes` and `offset += payload_bytes` wrap. Adding an offset to the start
of the vector does not, so a copy is recorded with the range it really has.

A stored cell without the encoded-key flag goes through the datatype decoder,
which works on the copy of the payload and not on the image. Whether it accepts
decides how far the parser gets, so the decoder is a parameter here.
-/

namespace ScratchBird.Btree.Reads

open Lib Lib.ImageReader
open Index (Bytes)
open Storage (isTypedEngineIdentity)

def requireMagic (pageNumber : UInt64) : ImageReader DiagnosticRecord Unit := do
  let magic ← copy kOffsetMagic 8
  if magic = kIndexBtreeMagic then pure ()
  else
    let lead ← copy 0 kIndexBtreeMagicPrefix.length
    refuse (if hasIndexBtreeMagicPrefix lead then
        makeIndexBtreePageDiagnostic "SB-INDEX-BTREE-PAGE-FORMAT-UNSUPPORTED"
          "storage.index_btree_page.format_unsupported" (toString pageNumber.toNat)
      else
        makeIndexBtreePageDiagnostic "SB-INDEX-BTREE-PAGE-MAGIC-INVALID"
          "storage.index_btree_page.magic_invalid" (toString pageNumber.toNat))

/-- The counts of the header that the rest of the parser works with. -/
structure PageExtent where
  cellCount : Nat
  bodyBytes : Nat
  freeSpaceBytes : Nat
  deriving DecidableEq

/-- The header checks that come before any field is kept. -/
def checkPageHeader (pageNumber : UInt64) : ImageReader DiagnosticRecord PageExtent := do
  let size ← imageSize
  require (kIndexBtreePageBodyHeaderBytes ≤ size)
    (makeIndexBtreePageDiagnostic "SB-INDEX-BTREE-PAGE-BODY-SHORT"
      "storage.index_btree_page.body_short" (toString pageNumber.toNat))
  requireMagic pageNumber
  let headerBytes ← load kOffsetHeaderBytes 4
  require (headerBytes = kIndexBtreePageBodyHeaderBytes)
    (makeIndexBtreePageDiagnostic "SB-INDEX-BTREE-PAGE-HEADER-SIZE-INVALID"
      "storage.index_btree_page.header_size_invalid" (toString pageNumber.toNat))
  let checksum ← load kOffsetBodyChecksum 8
  let serialized ← copy 0 size
  require (UInt64.ofNat checksum = computeIndexBtreePageChecksum serialized)
    (makeIndexBtreePageDiagnostic "SB-INDEX-BTREE-PAGE-CHECKSUM-MISMATCH"
      "storage.index_btree_page.checksum_mismatch" (toString pageNumber.toNat))
  let cellCount ← load kOffsetCellCount 4
  let bodyBytes ← load kOffsetBodyBytes 4
  require (bodyBytes ≤ size ∧ kIndexBtreePageBodyHeaderBytes ≤ bodyBytes)
    (makeIndexBtreePageDiagnostic "SB-INDEX-BTREE-PAGE-BODY-SIZE-INVALID"
      "storage.index_btree_page.body_size_invalid" (toString pageNumber.toNat))
  let freeSpaceBytes ← load kOffsetFreeSpaceBytes 4
  require (freeSpaceBytes = size - bodyBytes)
    (makeIndexBtreePageDiagnostic "SB-INDEX-BTREE-PAGE-FREE-SPACE-INVALID"
      "storage.index_btree_page.free_space_invalid" (toString pageNumber.toNat))
  pure ⟨cellCount, bodyBytes, freeSpaceBytes⟩

def parseHeaderFields (pageNumber : UInt64) (freeSpaceBytes : Nat) :
    ImageReader DiagnosticRecord IndexBtreePageBody := do
  let stored ← load kOffsetPageNumber 8
  let number :=
    if UInt64.ofNat stored = 0 then pageNumber else UInt64.ofNat stored
  require (number = pageNumber) (makeIndexBtreePageDiagnostic "SB-INDEX-BTREE-PAGE-NUMBER-MISMATCH"
      "storage.index_btree_page.page_number_mismatch" (toString pageNumber.toNat))
  let uuid ← copy kOffsetIndexUuid 16
  let indexUuid : TypedUuid := ⟨.object, loadUuid uuid 0⟩
  require (isTypedEngineIdentity indexUuid .object)
    (makeIndexBtreePageDiagnostic "SB-INDEX-BTREE-PAGE-INDEX-UUID-MUST-BE-V7"
      "storage.index_btree_page.index_uuid_must_be_v7" (toString pageNumber.toNat))
  let kind ← load kOffsetPageKind 2
  require (isKnownPageKind (.ofCode kind))
    (makeIndexBtreePageDiagnostic "SB-INDEX-BTREE-PAGE-KIND-INVALID"
      "storage.index_btree_page.kind_invalid" (toString pageNumber.toNat))
  let level ← load kOffsetTreeLevel 2
  let left ← load kOffsetLeftSibling 8
  let right ← load kOffsetRightSibling 8
  let parent ← load kOffsetParentPage 8
  pure
    { indexUuid
      pageNumber := number
      parentPageNumber := UInt64.ofNat parent
      leftSiblingPageNumber := UInt64.ofNat left
      rightSiblingPageNumber := UInt64.ofNat right
      freeSpaceBytes := UInt32.ofNat freeSpaceBytes
      treeLevel := UInt16.ofNat level
      pageKind := .ofCode kind }

section

variable (decodeDatatypeBinaryValue : Bytes → Except DiagnosticRecord Unit)

def checkStoredPayload (flags : UInt16) (encoded : Bytes)
    (cell : IndexBtreeCell) (cellIndex : Nat) : Except DiagnosticRecord Unit :=
  if flags &&& 4 != 0 then validateEncodedKey cell cellIndex
  else decodeDatatypeBinaryValue encoded

/-- A cell up to the copy of its payload, with its flags, the payload and the
offset behind it. -/
def readCell (bodyBytes cellIndex offset : Nat) :
    ImageReader DiagnosticRecord (IndexBtreeCell × UInt16 × Bytes × Nat) := do
  requireFits offset kCellHeaderBytes bodyBytes
    (makeIndexBtreePageDiagnostic "SB-INDEX-BTREE-PAGE-CELL-SHORT"
      "storage.index_btree_page.cell_short" (toString cellIndex))
  let stored ← load (offset + kCellOffsetFlags) 2
  let flags := UInt16.ofNat stored
  let keyOrdinal ← load (offset + kCellOffsetKeyOrdinal) 2
  let payloadBytes ← load (offset + kCellOffsetPayloadBytes) 4
  let payloadChecksum ← load (offset + kCellOffsetPayloadChecksum) 8
  let child ← load (offset + kCellOffsetChildPageNumber) 8
  let row ← copy (offset + kCellOffsetRowUuid) 16
  let rowUuid ← check (parseRowUuid row 0 "SB-INDEX-BTREE-PAGE-ROW-UUID-MUST-BE-V7"
    "storage.index_btree_page.row_uuid_must_be_v7" cellIndex)
  let version ← copy (offset + kCellOffsetVersionUuid) 16
  let versionUuid ← check (parseRowUuid version 0 "SB-INDEX-BTREE-PAGE-VERSION-UUID-MUST-BE-V7"
    "storage.index_btree_page.version_uuid_must_be_v7" cellIndex)
  let payload := sum32 offset kCellHeaderBytes
  requireFits payload payloadBytes bodyBytes
    (makeIndexBtreePageDiagnostic "SB-INDEX-BTREE-PAGE-PAYLOAD-SHORT"
      "storage.index_btree_page.payload_short" (toString cellIndex))
  let encoded ← copy payload payloadBytes
  require (UInt64.ofNat payloadChecksum = fnv1a64 encoded) (makeIndexBtreePageDiagnostic
      "SB-INDEX-BTREE-PAGE-PAYLOAD-CHECKSUM-MISMATCH"
      "storage.index_btree_page.payload_checksum_mismatch" (toString cellIndex))
  pure
    ( { keyOrdinal := UInt16.ofNat keyOrdinal
        encodedKey := if flags &&& 4 != 0 then encoded else []
        rowUuid
        versionUuid
        childPageNumber := UInt64.ofNat child
        highKey := flags &&& 1 != 0
        deleted := flags &&& 2 != 0 }
    , flags, encoded, sum32 payload payloadBytes )

def parseCells (bodyBytes : Nat) : Nat → Nat → Nat →
    ImageReader DiagnosticRecord (List IndexBtreeCell × Nat)
  | 0, _, offset => pure ([], offset)
  | count + 1, cellIndex, offset => do
      let (cell, flags, encoded, next) ← readCell bodyBytes cellIndex offset
      check (checkStoredPayload decodeDatatypeBinaryValue flags encoded cell cellIndex)
      let (cells, last) ← parseCells bodyBytes count (cellIndex + 1) next
      pure (cell :: cells, last)

def parseIndexBtreePageBody (pageNumber : UInt64) :
    ImageReader DiagnosticRecord IndexBtreePageBodyResult := do
  let extent ← checkPageHeader pageNumber
  let header ← parseHeaderFields pageNumber extent.freeSpaceBytes
  let size ← imageSize
  let serialized ← copy 0 size
  let (cells, last) ← parseCells decodeDatatypeBinaryValue extent.bodyBytes
    extent.cellCount 0 kIndexBtreePageBodyHeaderBytes
  require (last = extent.bodyBytes)
    (makeIndexBtreePageDiagnostic "SB-INDEX-BTREE-PAGE-BODY-TRAILING-BYTES"
      "storage.index_btree_page.body_trailing_bytes" (toString pageNumber.toNat))
  check (validatePhysicalPageBody { header with cells := cells })
  pure { body := { header with cells := cells }, serialized := serialized }

end

end ScratchBird.Btree.Reads
