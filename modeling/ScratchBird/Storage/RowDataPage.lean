import ScratchBird.Platform

/-!
# Row data pages

The page body of `row_data_page.cpp` and the checks a body passes before it is
laid out. The layout itself is not modelled here: a page that was built is kept
as the body the parser gives back for its image. Cells are opaque, and
`cellBytes` stands for the datatype codec: the size of a cell's encoding, or the
reason it has none. Receiving schemas are left out.
-/

namespace ScratchBird.Storage

structure RowDataRecord (κ : Type) where
  rowUuid : TypedUuid := {}
  versionUuid : Uuid := Uuid.nil
  previousVersionUuid : Uuid := Uuid.nil
  nextVersionUuid : Uuid := Uuid.nil
  transactionUuid : TypedUuid := {}
  localTransactionId : Nat := 0
  internalRowOrdinal : Nat := 0
  stableSlotId : Nat := 0
  rowVersion : Nat := 1
  storageGeneration : Nat := 0
  previousRowVersion : Nat := 0
  nextRowVersion : Nat := 0
  deleted : Bool := false
  cells : List κ := []
  deriving DecidableEq

structure RowDataPageBody (κ : Type) where
  relationUuid : TypedUuid := {}
  segmentId : Nat := 0
  segmentGeneration : Nat := 0
  pageNumber : Nat := 0
  pageGeneration : Nat := 0
  compactionGeneration : Nat := 0
  nextPageNumber : Nat := 0
  rows : List (RowDataRecord κ) := []
  deriving DecidableEq

variable {κ : Type}

def makeRowDataPageDiagnostic (code key : String) (detail : String := "") :
    DiagnosticRecord :=
  { diagnosticCode := code, messageKey := key, detail, sourceComponent := "storage.page.row_data" }

def rowPageError {α : Type} (code key : String) (detail : String := "") :
    Except DiagnosticRecord α := .error (makeRowDataPageDiagnostic code key detail)

def kPageHeaderSerializedBytes : Nat := 128
def kRowDataPageBodyHeaderBytes : Nat := 96
def kRowHeaderBytes : Nat := 144
def kCellHeaderBytes : Nat := 16
def kSlotEntryBytes : Nat := 24
def u16Max : Nat := 65535
def u32Max : Nat := 4294967295

def isTypedEngineIdentity (u : TypedUuid) (kind : UuidKind) : Bool :=
  u.kind == kind && u.valid && isEngineIdentityUuid u.value

def validLink (row : RowDataRecord κ) (link : Uuid) (sequence : Nat) : Bool :=
  if sequence = 0 then link.isNil
  else
    isEngineIdentityUuid link && decide (link ≠ row.versionUuid) &&
      decide (link ≠ row.rowUuid.value)

def validRowIdentity (row : RowDataRecord κ) : Bool :=
  isTypedEngineIdentity row.rowUuid .row &&
    isTypedEngineIdentity row.transactionUuid .transaction &&
    isEngineIdentityUuid row.versionUuid &&
    decide (row.versionUuid ≠ row.rowUuid.value) &&
    row.localTransactionId != 0 && row.rowVersion != 0 &&
    row.storageGeneration != 0 &&
    validLink row row.previousVersionUuid row.previousRowVersion &&
    validLink row row.nextVersionUuid row.nextRowVersion &&
    (row.previousRowVersion == 0 ||
      decide (row.previousRowVersion < row.rowVersion)) &&
    (row.nextRowVersion == 0 || decide (row.nextRowVersion > row.rowVersion))

/-- A previous link that names a version of this page names the right one, by
version UUID and by sequence. -/
def previousLinksMatchPage (body : RowDataPageBody κ) : Bool :=
  body.rows.all fun row =>
    row.previousRowVersion == 0 || ((match body.rows.find? fun r =>
            decide (r.versionUuid = row.previousVersionUuid) with
        | some version =>
          decide (version.rowUuid.value = row.rowUuid.value) &&
            version.rowVersion == row.previousRowVersion
        | none => true) &&
      (match body.rows.find? fun r =>
            decide (r.rowUuid.value = row.rowUuid.value) &&
              r.rowVersion == row.previousRowVersion with
        | some sequence => decide (sequence.versionUuid = row.previousVersionUuid)
        | none => true))

def assignOrdinalsFrom (index : Nat) : List (RowDataRecord κ) → List (RowDataRecord κ)
  | [] => []
  | row :: rows =>
    { row with
      internalRowOrdinal := (index + 1) % (u32Max + 1)
      stableSlotId :=
        if row.stableSlotId = 0 then (index + 1) % (u32Max + 1)
        else row.stableSlotId } ::
      assignOrdinalsFrom (index + 1) rows

def assignDenseInternalRowOrdinals (body : RowDataPageBody κ) :
    RowDataPageBody κ := { body with rows := assignOrdinalsFrom 0 body.rows }

/-- The cells of a row, from the bytes used so far to the bytes used after. -/
def layOutCells (cellBytes : κ → Except DiagnosticRecord Nat) (pageSize : Nat) :
    Nat → List κ → Except DiagnosticRecord Nat
  | bodyBytes, [] => .ok bodyBytes
  | bodyBytes, cell :: cells => do
      let payloadBytes ← cellBytes cell
      if payloadBytes > pageSize ∨ bodyBytes > pageSize ∨
          kCellHeaderBytes + payloadBytes > pageSize - bodyBytes then
        rowPageError "SB-ROW-DATA-PAGE-BODY-TOO-LARGE" "storage.row_data_page.body_too_large"
      else
        layOutCells cellBytes pageSize (bodyBytes + kCellHeaderBytes + payloadBytes) cells

def checkRow (pageGeneration : Nat) (seen : List (RowDataRecord κ))
    (row : RowDataRecord κ) : Option DiagnosticRecord :=
  if row.storageGeneration = 0 ∨ row.storageGeneration > pageGeneration then
    some (makeRowDataPageDiagnostic "CATALOG.INVALID_INPUT"
      "storage.row_data_page.storage_generation_invalid")
  else if ¬validRowIdentity row ∨ row.versionUuid ∈ seen.map (·.versionUuid) ∨
      (row.rowUuid.value, row.rowVersion) ∈ seen.map (fun r => (r.rowUuid.value, r.rowVersion)) then
    some (makeRowDataPageDiagnostic "SB-ROW-DATA-PAGE-UUID-MUST-BE-V7"
      "storage.row_data_page.uuid_must_be_v7")
  else if row.previousRowVersion ≠ 0 ∧ row.previousRowVersion ≥ row.rowVersion then
    some (makeRowDataPageDiagnostic "SB-ROW-DATA-PAGE-LINEAGE-INVALID"
      "storage.row_data_page.previous_lineage_invalid" (toString row.rowVersion))
  else if row.nextRowVersion ≠ 0 ∧ row.nextRowVersion ≤ row.rowVersion then
    some (makeRowDataPageDiagnostic "SB-ROW-DATA-PAGE-LINEAGE-INVALID"
      "storage.row_data_page.next_lineage_invalid" (toString row.rowVersion))
  else if row.cells.length > u16Max then
    some (makeRowDataPageDiagnostic "CATALOG.INVALID_INPUT"
      "storage.row_data_page.cell_count_invalid")
  else none

/-- The loop over the rows: the rows already seen, and the bytes used. -/
def layOutRows (cellBytes : κ → Except DiagnosticRecord Nat) (pageSize pageGeneration : Nat) :
    List (RowDataRecord κ) → Nat → List (RowDataRecord κ) → Except DiagnosticRecord Nat
  | _, bodyBytes, [] => .ok bodyBytes
  | seen, bodyBytes, row :: rows =>
    match checkRow pageGeneration seen row with
    | some diagnostic => .error diagnostic
    | none => do
        let bodyBytes ← layOutCells cellBytes pageSize (bodyBytes + kRowHeaderBytes) row.cells
        layOutRows cellBytes pageSize pageGeneration (row :: seen) bodyBytes rows

/-- The body as laid out. -/
def buildRowDataPageBody (cellBytes : κ → Except DiagnosticRecord Nat)
    (body : RowDataPageBody κ) (pageSize : Nat) : Except DiagnosticRecord (RowDataPageBody κ) :=
  let body := assignDenseInternalRowOrdinals body
  if pageSize ≤ kPageHeaderSerializedBytes + kRowDataPageBodyHeaderBytes then
    rowPageError "SB-ROW-DATA-PAGE-SIZE-TOO-SMALL"
      "storage.row_data_page.page_size_too_small" (toString pageSize)
  else if ¬isTypedEngineIdentity body.relationUuid .object then
    rowPageError "SB-ROW-DATA-PAGE-RELATION-UUID-REQUIRED"
      "storage.row_data_page.relation_uuid_required"
  else if body.segmentId = 0 ∨ body.segmentGeneration = 0 ∨ body.pageGeneration = 0 then
    rowPageError "SB-ROW-DATA-PAGE-ORDINAL-SCOPE-REQUIRED"
      "storage.row_data_page.ordinal_scope_required"
  else do
    let bodyBytes ← layOutRows cellBytes pageSize body.pageGeneration []
      kRowDataPageBodyHeaderBytes body.rows
    if bodyBytes > pageSize then
      rowPageError "SB-ROW-DATA-PAGE-BODY-TOO-LARGE" "storage.row_data_page.body_too_large"
    else if ¬previousLinksMatchPage body then
      rowPageError "CATALOG.INVALID_INPUT" "storage.row_data_page.previous_identity_mismatch"
    else if bodyBytes + body.rows.length * kSlotEntryBytes >
        pageSize - kPageHeaderSerializedBytes then
      rowPageError "SB-ROW-DATA-PAGE-BODY-TOO-LARGE" "storage.row_data_page.body_too_large"
        (toString (bodyBytes + body.rows.length * kSlotEntryBytes))
    else
      return { body with
        compactionGeneration :=
          if body.compactionGeneration = 0 then body.pageGeneration
          else body.compactionGeneration }

end ScratchBird.Storage
