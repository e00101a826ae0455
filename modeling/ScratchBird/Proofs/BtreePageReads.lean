import ScratchBird.Index.BtreePageReads
import ScratchBird.Lib.Refusal

/-!
# What parsing an ordered index page reads

Each cell is tested against the body size before its header is read and again
before its payload is copied, on sums of 32 bits. A payload length near four
gigabytes brings `offset + payload_bytes` round to a small number, the test
passes, and the copy that follows runs over four gigabytes from inside the page.
The header sum can wrap only at an offset within a cell header of four
gigabytes, in an image of that size.

`CellsInside` follows the cells that the parser gets to, on the bytes of the
image alone, and asks of each that its header and its payload end inside the
image where the tests let them pass.
-/

namespace ScratchBird.Btree.Reads

open Lib Lib.ImageReader
open Index (Bytes)
open Storage (isTypedEngineIdentity)

variable {image encoded : Bytes} {pageNumber : UInt64}
  {offset cellIndex bodyBytes freeSpaceBytes count : Nat}
  {decode : Bytes → Except DiagnosticRecord Unit}

/-! ## Fields read from a copy -/

theorem loadUuid_copy : loadUuid (bytesAt image offset 16) 0 = loadUuid image offset := by
  simp only [loadUuid, bytesAt_bytesAt]

theorem parseRowUuid_copy {code key : String} :
    parseRowUuid (bytesAt image offset 16) 0 code key cellIndex =
      parseRowUuid image offset code key cellIndex := by
  rw [parseRowUuid, parseRowUuid, loadUuid_copy]

/-! ## The header -/

/-- The counts as they stand in the header of an image. -/
def extentOf (image : Bytes) : PageExtent :=
  { cellCount := loadLittle image kOffsetCellCount 4
    bodyBytes := loadLittle image kOffsetBodyBytes 4
    freeSpaceBytes := loadLittle image kOffsetFreeSpaceBytes 4 }

theorem requireMagic_accepts_iff :
    (requireMagic pageNumber image).2 = .ok () ↔
      bytesAt image kOffsetMagic 8 = kIndexBtreeMagic := by
  rw [requireMagic, accepts_copy_bind]
  split
  · next h => simp [h]
  · next h => simp [h, refuse, check]

/-- The header is accepted alike, and with its counts. -/
theorem checkPageHeader_accepts_iff {extent : PageExtent} :
    (checkPageHeader pageNumber image).2 = .ok extent ↔
      extentOf image = extent ∧ Btree.checkPageHeader image pageNumber = .ok () := by
  have hmagic : ∀ {g : Unit → ImageReader DiagnosticRecord PageExtent},
      ((requireMagic pageNumber >>= g) image).2 = .ok extent ↔
        bytesAt image kOffsetMagic 8 = kIndexBtreeMagic ∧ (g () image).2 = .ok extent := by
    intro g
    rw [accepts_bind, Unique.exists_iff]
    exact and_congr_left' requireMagic_accepts_iff
  simp only [checkPageHeader, accepts_imageSize_bind, accepts_require_bind, hmagic,
    accepts_load_bind, accepts_copy_bind, accepts_pure, bytesAt_self]
  simp only [Btree.checkPageHeader, indexPageError, ← apply_ite, guard_eq_ok_iff, not_lt, not_or,
    ne_eq, not_not, and_true, and_comm (a := extentOf image = extent), and_assoc]
  exact Iff.rfl

theorem checkPageHeader_safe : Safe image (checkPageHeader pageNumber) := by
  simp only [checkPageHeader, safe_imageSize_bind, safe_require_bind]
  intro hsize
  have hin : ∀ {offset width : Nat}, offset + width ≤ 96 → offset + width ≤ image.length :=
    fun h => Nat.le_trans h hsize
  refine safe_bind.mpr ⟨?_, fun _ _ => ?_⟩
  · rw [requireMagic, safe_copy_bind]
    refine ⟨hin (by decide), ?_⟩
    split
    · exact safe_pure ()
    · exact safe_copy_bind.mpr ⟨hin (by decide), safe_refuse⟩
  · simp only [safe_load_bind, safe_require_bind, safe_copy_bind, safe_pure, Nat.zero_add]
    exact ⟨hin (by decide), fun _ => ⟨hin (by decide), Nat.le_refl _, fun _ =>
      ⟨hin (by decide), hin (by decide), fun _ => ⟨hin (by decide), fun _ => trivial⟩⟩⟩⟩

theorem parseHeaderFields_accepts_iff {header : IndexBtreePageBody} :
    (parseHeaderFields pageNumber (extentOf image).freeSpaceBytes image).2 = .ok header ↔
      Btree.parseHeaderFields image pageNumber = .ok header := by
  simp only [parseHeaderFields, accepts_require_bind, accepts_load_bind, accepts_copy_bind,
    accepts_pure, loadUuid_copy]
  simp only [Btree.parseHeaderFields, indexPageError, guard_eq_ok_iff, ne_eq, not_not,
    Bool.not_eq_true', Bool.not_eq_false, Except.ok.injEq]
  exact Iff.rfl

theorem parseHeaderFields_safe (hsize : 96 ≤ image.length) :
    Safe image (parseHeaderFields pageNumber freeSpaceBytes) := by
  have hin : ∀ {offset width : Nat}, offset + width ≤ 96 → offset + width ≤ image.length :=
    fun h => Nat.le_trans h hsize
  simp only [parseHeaderFields, safe_load_bind, safe_require_bind, safe_copy_bind, safe_pure]
  exact ⟨hin (by decide), fun _ => ⟨hin (by decide), fun _ => ⟨hin (by decide), fun _ =>
    ⟨hin (by decide), hin (by decide), hin (by decide), hin (by decide), trivial⟩⟩⟩⟩

/-! ## The cells -/

/-- A stored identity that the parser takes: absent, or generated. -/
def RowUuidKept (image : Bytes) (offset : Nat) : Prop :=
  (loadUuid image offset).isNil = true ∨
    isTypedEngineIdentity ⟨.row, loadUuid image offset⟩ .row = true

theorem forall_parseRowUuid_iff {code key : String} {P : Prop} :
    (∀ uuid, parseRowUuid image offset code key cellIndex = .ok uuid → P) ↔
      (RowUuidKept image offset → P) := by
  have hkept : (∃ uuid, parseRowUuid image offset code key cellIndex = .ok uuid) ↔
      RowUuidKept image offset := by
    rw [parseRowUuid, RowUuidKept]
    split
    · next h => simp [h]
    · next h => simp [h, indexPageError, guard_eq_ok_iff]
  rw [← hkept, forall_exists_index]

/-- The payload of the cell at an offset that the parser takes. -/
def PayloadKept (decode : Bytes → Except DiagnosticRecord Unit) (image : Bytes) (offset : Nat)
    (encoded : Bytes) : Prop :=
  UInt64.ofNat (loadLittle image (offset + kCellOffsetPayloadChecksum) 8) = fnv1a64 encoded ∧
    checkStoredPayload decode (UInt16.ofNat (loadLittle image (offset + kCellOffsetFlags) 2))
      encoded { encodedKey := encoded } 0 = .ok ()

/-- The cells from an offset on that the parser gets to: where the tests on
32-bit sums let a cell pass, its fields and its payload end inside the image. -/
def CellsInside (decode : Bytes → Except DiagnosticRecord Unit) (image : Bytes)
    (bodyBytes : Nat) : Nat → Nat → Prop
  | 0, _ => True
  | count + 1, offset =>
    sum32 offset kCellHeaderBytes ≤ bodyBytes →
      offset + kCellOffsetRowUuid + 16 ≤ image.length ∧
      (RowUuidKept image (offset + kCellOffsetRowUuid) →
        offset + kCellOffsetVersionUuid + 16 ≤ image.length ∧
        (RowUuidKept image (offset + kCellOffsetVersionUuid) →
          let payload := sum32 offset kCellHeaderBytes
          let payloadBytes := loadLittle image (offset + kCellOffsetPayloadBytes) 4
          sum32 payload payloadBytes ≤ bodyBytes →
            payload + payloadBytes ≤ image.length ∧
            (PayloadKept decode image offset (bytesAt image payload payloadBytes) →
              CellsInside decode image bodyBytes count (sum32 payload payloadBytes))))

/-- Of a cell only the key decides whether its payload is taken. -/
theorem checkStoredPayload_accepts_iff {flags : UInt16} {cell : IndexBtreeCell}
    (hkey : cell.encodedKey = if flags &&& 4 != 0 then encoded else []) :
    checkStoredPayload decode flags encoded cell cellIndex = .ok () ↔
      checkStoredPayload decode flags encoded { encodedKey := encoded } 0 = .ok () := by
  rw [checkStoredPayload, checkStoredPayload]
  split
  · next hflag =>
    rw [if_pos hflag] at hkey
    simp only [validateEncodedKey, indexPageError, guard_eq_ok_iff, hkey]
  · exact Iff.rfl

/-- The fields of a cell stand before its identities. -/
theorem fields_inside_iff {P : Prop} :
    (offset + kCellOffsetFlags + 2 ≤ image.length ∧
      offset + kCellOffsetKeyOrdinal + 2 ≤ image.length ∧
      offset + kCellOffsetPayloadBytes + 4 ≤ image.length ∧
      offset + kCellOffsetPayloadChecksum + 8 ≤ image.length ∧
      offset + kCellOffsetChildPageNumber + 8 ≤ image.length ∧
      offset + kCellOffsetRowUuid + 16 ≤ image.length ∧ P) ↔
      offset + kCellOffsetRowUuid + 16 ≤ image.length ∧ P := by
  simp only [kCellOffsetFlags, kCellOffsetKeyOrdinal, kCellOffsetPayloadBytes,
    kCellOffsetPayloadChecksum, kCellOffsetChildPageNumber, kCellOffsetRowUuid]
  constructor
  · rintro ⟨-, -, -, -, -, h⟩
    exact h
  · rintro ⟨hrow, h⟩
    exact ⟨by omega, by omega, by omega, by omega, by omega, hrow, h⟩

theorem safe_parseCells_iff :
    Safe image (parseCells decode bodyBytes count cellIndex offset) ↔
      CellsInside decode image bodyBytes count offset := by
  induction count generalizing cellIndex offset with
  | zero => exact ⟨fun _ => trivial, fun _ => safe_pure _⟩
  | succ count ih =>
    rw [parseCells, CellsInside, readCell]
    simp only [bind_assoc, pure_bind, requireFits, safe_load_bind, safe_require_bind,
      safe_copy_bind, safe_check_bind, safe_bind_pure, parseRowUuid_copy, forall_parseRowUuid_iff,
      Unique.forall_iff, PUnit.default_eq_unit, checkStoredPayload_accepts_iff, ih,
      fields_inside_iff, PayloadKept, and_imp]
    exact Iff.rfl

theorem size_of_checkPageHeader (h : Btree.checkPageHeader image pageNumber = .ok ()) :
    96 ≤ image.length := Nat.le_of_not_lt (guard_eq_ok_iff.mp h).1

theorem safe_parseIndexBtreePageBody_iff :
    Safe image (parseIndexBtreePageBody decode pageNumber) ↔
      (Btree.checkPageHeader image pageNumber = .ok () →
        (∃ header, Btree.parseHeaderFields image pageNumber = .ok header) →
          CellsInside decode image (loadLittle image kOffsetBodyBytes 4)
            (loadLittle image kOffsetCellCount 4) kIndexBtreePageBodyHeaderBytes) := by
  rw [parseIndexBtreePageBody, safe_bind, and_iff_right checkPageHeader_safe]
  simp only [checkPageHeader_accepts_iff, and_imp, forall_eq']
  refine forall_congr' fun hheader => ?_
  rw [safe_bind, and_iff_right (parseHeaderFields_safe (size_of_checkPageHeader hheader))]
  simp only [parseHeaderFields_accepts_iff, safe_imageSize_bind, safe_copy_bind, Nat.zero_add,
    Nat.le_refl, true_and, forall_exists_index]
  refine forall_congr' fun header => forall_congr' fun _ => ?_
  rw [safe_bind_of_safe, safe_parseCells_iff]
  · exact Iff.rfl
  · intro parsed
    simp only [safe_require_bind, safe_check_bind, safe_pure, implies_true]

/-- The parser reads inside the image, whatever its size, exactly when each
cell it gets to behind an accepted header is inside the image. -/
theorem btree_reads_inBounds_iff (decode : Bytes → Except DiagnosticRecord Unit) (image : Bytes)
    (pageNumber : UInt64) :
    InBounds image (parseIndexBtreePageBody decode pageNumber image).1 ↔
      (Btree.checkPageHeader image pageNumber = .ok () →
        (∃ header, Btree.parseHeaderFields image pageNumber = .ok header) →
          CellsInside decode image (loadLittle image kOffsetBodyBytes 4)
            (loadLittle image kOffsetCellCount 4) kIndexBtreePageBodyHeaderBytes) :=
  safe_parseIndexBtreePageBody_iff

/-! ## Pages -/

instance decidableRowUuidKept : Decidable (RowUuidKept image offset) :=
  inferInstanceAs (Decidable (_ ∨ _))

instance decidablePayloadKept : Decidable (PayloadKept decode image offset encoded) :=
  inferInstanceAs (Decidable (_ ∧ _))

instance decidableCellsInside : ∀ count offset,
    Decidable (CellsInside decode image bodyBytes count offset)
  | 0, _ => isTrue trivial
  | count + 1, _ =>
    have := decidableCellsInside count
    inferInstanceAs (Decidable (_ → _ ∧ (_ → _ ∧ (_ → _ → _ ∧ (_ → CellsInside _ _ _ count _)))))

theorem twoCellLeaf_reads_inBounds : ∃ r, buildIndexBtreePageBody twoCellLeaf 512 = .ok r ∧
    loadLittle r.serialized kOffsetCellCount 4 = 2 ∧
    InBounds r.serialized (parseIndexBtreePageBody (fun _ => .ok ()) 7 r.serialized).1 := by
  obtain ⟨r, hr, hcount, hcells⟩ : ∃ r, buildIndexBtreePageBody twoCellLeaf 512 = .ok r ∧
      loadLittle r.serialized kOffsetCellCount 4 = 2 ∧
      CellsInside (fun _ => .ok ()) r.serialized (loadLittle r.serialized kOffsetBodyBytes 4) 2
        kIndexBtreePageBodyHeaderBytes := by
    decide +kernel
  refine ⟨r, hr, hcount, (btree_reads_inBounds_iff _ _ _).mpr fun _ _ => ?_⟩
  rw [hcount]
  exact hcells

/-- One cell header and nothing behind it; the cell says that its payload is
one byte short of four gigabytes. -/
def wrappedCell : Bytes :=
  List.flatten [ littleBytes 2 4 , littleBytes 2 0 , littleBytes 4 0xffffffff
    , List.replicate 56 0 ]

def wrappedPageBody : IndexBtreePageBody :=
  { indexUuid := ⟨.object, engineUuid 1⟩, pageNumber := 7, pageKind := .leaf, cells := [{}] }

def wrappedPage : Bytes :=
  serializeHeader wrappedPageBody 0 (computeIndexBtreePageChecksum
      (serializeHeader wrappedPageBody 0 0 ++ wrappedCell)) ++ wrappedCell

/-- The page ends at byte 160, where the payload would start: 160 and the
payload length make 159 in 32 bits. -/
theorem payload_copied_past_end :
    wrappedPage.length = 160 ∧ ∀ decode : Bytes → Except DiagnosticRecord Unit,
        ¬InBounds wrappedPage (parseIndexBtreePageBody decode 7 wrappedPage).1 := by
  refine ⟨by decide +kernel, ?_⟩
  intro decode hin
  have hcells := safe_parseIndexBtreePageBody_iff.mp hin (by decide +kernel)
    ⟨{ wrappedPageBody with cells := [] }, by decide +kernel⟩
  have hcount : loadLittle wrappedPage kOffsetCellCount 4 = 1 := by decide +kernel
  rw [hcount] at hcells
  have hpayload := (((hcells (by decide +kernel)).2 (by decide +kernel)).2 (by decide +kernel)
    (by decide +kernel)).1
  exact absurd hpayload (by decide +kernel)

end ScratchBird.Btree.Reads
