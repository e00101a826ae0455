import Mathlib.Order.Std
import Mathlib.Data.List.Chain
import Mathlib.Tactic.Order
import ScratchBird.Index.BtreePage
import ScratchBird.Lib.Refusal

/-!
# The page format

Cells are compared by what follows the key's envelope, then by row and by
version. That triple is a cell's *locator*, and locators are linearly ordered,
so the comparisons of the source become facts about a linear order.

The rest is the round trip. A body that can be built passes every check, fits
its page, and is given back unchanged by the parser but for the free space,
which the builder computes.
-/

namespace ScratchBird.Btree

open Lib List
open Index (Bytes)
open Storage (isTypedEngineIdentity kPageHeaderSerializedBytes)

variable {image pre post field : Bytes} {i offset width n : Nat} {cells : List IndexBtreeCell}
  {body : IndexBtreePageBody} {cell p c : IndexBtreeCell} {internalLike : Bool} {pageSize : UInt32}
  {checksum : UInt64} {key : Bytes}

/-! ## Locators -/

/-- What a key is compared by: its bytes behind the envelope. -/
structure OrderedKey where
  bytes : Bytes
  deriving DecidableEq

instance : Ord OrderedKey := ⟨compareOn OrderedKey.bytes⟩

instance : Std.TransOrd OrderedKey := inferInstanceAs (Std.TransCmp (compareOn OrderedKey.bytes))

instance : Std.LawfulEqOrd OrderedKey where
  eq_of_compare {a b} h := by
    have hbytes : a.bytes = b.bytes := Std.LawfulEqOrd.eq_of_compare h
    cases a
    cases b
    congr

instance : LinearOrder OrderedKey := LinearOrder.ofStd OrderedKey

structure Locator where
  key : OrderedKey
  row : Bytes
  version : Bytes
  deriving DecidableEq

instance : Ord Locator :=
  ⟨compareLex (compareOn Locator.key)
    (compareLex (compareOn Locator.row) (compareOn Locator.version))⟩

instance : Std.TransOrd Locator :=
  inferInstanceAs (Std.TransCmp (compareLex (compareOn Locator.key)
    (compareLex (compareOn Locator.row) (compareOn Locator.version))))

instance : Std.LawfulEqOrd Locator where
  eq_of_compare {a b} h := by
    have h : (compare a.key b.key).then
        ((compare a.row b.row).then (compare a.version b.version)) = .eq := h
    obtain ⟨hkey, hrest⟩ := Ordering.then_eq_eq.mp h
    obtain ⟨hrow, hversion⟩ := Ordering.then_eq_eq.mp hrest
    have hkey := Std.LawfulEqOrd.eq_of_compare hkey
    have hrow := Std.LawfulEqOrd.eq_of_compare hrow
    have hversion := Std.LawfulEqOrd.eq_of_compare hversion
    cases a
    cases b
    congr

instance : LinearOrder Locator := LinearOrder.ofStd Locator

def orderedKey (key : Bytes) : OrderedKey := ⟨key.drop kOrderPreservingKeyMagic.length⟩

def IndexBtreeCell.locator (cell : IndexBtreeCell) : Locator :=
  ⟨orderedKey cell.encodedKey, cell.rowUuid.value.bytes, cell.versionUuid.value.bytes⟩

theorem compareEncodedKeysOnly_eq (left right : Bytes) :
    compareEncodedKeysOnly left right = compare (orderedKey left) (orderedKey right) := rfl

theorem compareIndexBtreeCells_eq (left right : IndexBtreeCell) :
    compareIndexBtreeCellsUnchecked left right = compare left.locator right.locator := rfl

/-- A smaller locator has a smaller key, or the same one. -/
theorem Locator.key_le {a b : Locator} (h : a ≤ b) : a.key ≤ b.key := by
  by_contra hkey
  have hlt : compare b.key a.key = .lt := compare_lt_iff_lt.mpr (not_le.mp hkey)
  have : compare b a = .lt := by
    show (compare b.key a.key).then _ = .lt
    rw [hlt]
    rfl
  exact absurd (compare_lt_iff_lt.mp this) (not_lt.mpr h)

/-! ## The checks of a page body -/

theorem isOrderPreservingEncodedKey_iff :
    isOrderPreservingEncodedKey key = true ↔ kOrderPreservingKeyMagic <+: key := by
  rw [isOrderPreservingEncodedKey, isPrefixOf_iff_prefix]

theorem not_legacy_of_orderPreserving (h : isOrderPreservingEncodedKey key = true) :
    isUnsafeLegacyEncodedKey key = false := by
  rw [Bool.eq_false_iff]
  intro hlegacy
  rw [isUnsafeLegacyEncodedKey, isPrefixOf_iff_prefix] at hlegacy
  have hsame := (List.prefix_of_prefix_length_le
    (isOrderPreservingEncodedKey_iff.mp h) hlegacy (by decide)).eq_of_length (by decide)
  cases hsame

theorem ne_nil_of_orderPreserving (h : isOrderPreservingEncodedKey key = true) : key ≠ [] := by
  rintro rfl
  cases h

theorem validateEncodedKey_ok_iff :
    validateEncodedKey cell i = .ok () ↔ isOrderPreservingEncodedKey cell.encodedKey = true := by
  rw [validateEncodedKey, indexPageError, indexPageError, indexPageError,
    guard_eq_ok_iff, guard_eq_ok_iff, guard_eq_ok_iff]
  constructor
  · rintro ⟨-, -, h, -⟩
    simpa using h
  · intro h
    have hlegacy := not_legacy_of_orderPreserving h
    refine ⟨ne_nil_of_orderPreserving h, ?_, ?_, rfl⟩
    · rw [hlegacy]
      exact Bool.false_ne_true
    · rw [h]
      exact Bool.false_ne_true

/-- A cell in the kind of page it belongs to: fences carry a child, entries
of a leaf do not. -/
structure CellFits (internalLike : Bool) (cell : IndexBtreeCell) : Prop where
  key : isOrderPreservingEncodedKey cell.encodedKey = true
  row : generatedRowUuid cell.rowUuid = true
  version : generatedRowUuid cell.versionUuid = true
  highKey : cell.highKey = internalLike
  child : cell.childPageNumber = 0 ↔ internalLike = false

theorem validateCellFields_ok_iff (hkey : isOrderPreservingEncodedKey cell.encodedKey = true) :
    validateCellFields internalLike i cell = .ok () ↔ CellFits internalLike cell := by
  rw [validateCellFields, indexPageError, indexPageError, indexPageError,
    indexPageError, guard_eq_ok_iff, guard_eq_ok_iff, guard_eq_ok_iff, guard_eq_ok_iff]
  constructor
  · rintro ⟨hrow, hversion, hinternal, hleaf, -⟩
    refine ⟨hkey, by simpa using hrow, by simpa using hversion, ?_, ?_⟩
    all_goals cases internalLike <;> simp_all
  · rintro ⟨-, hrow, hversion, hhigh, hchild⟩
    cases internalLike <;> simp_all

theorem unsortedAfter_some : unsortedAfter (some p) c = true ↔ ¬p.locator ≤ c.locator := by
  rw [unsortedAfter, compareIndexBtreeCells_eq, beq_iff_eq, compare_gt_iff_gt, not_le]

theorem validateCells_ok_iff {previous : Option IndexBtreeCell} :
    validateCells internalLike i previous cells = .ok () ↔ (∀ c ∈ cells, CellFits internalLike c) ∧
        (previous.toList ++ cells).IsChain (fun a b => a.locator ≤ b.locator) := by
  induction cells generalizing i previous with
  | nil =>
    cases previous with
    | none => simp [validateCells]
    | some p => simp [validateCells]
  | cons c rest ih =>
    have hstep : validateCells internalLike i previous (c :: rest) = .ok () ↔
        CellFits internalLike c ∧ ¬unsortedAfter previous c = true ∧
          validateCells internalLike (i + 1) (some c) rest = .ok () := by
      rw [validateCells, bind_eq_ok_iff]
      constructor
      · rintro ⟨⟨⟩, hkey, h⟩
        obtain ⟨⟨⟩, hfields, h⟩ := bind_eq_ok_iff.mp h
        rw [indexPageError, guard_eq_ok_iff] at h
        exact ⟨(validateCellFields_ok_iff (validateEncodedKey_ok_iff.mp hkey)).mp hfields, h⟩
      · rintro ⟨hfits, h⟩
        refine ⟨(), validateEncodedKey_ok_iff.mpr hfits.key, bind_eq_ok_iff.mpr
            ⟨(), (validateCellFields_ok_iff hfits.key).mpr hfits, ?_⟩⟩
        rw [indexPageError, guard_eq_ok_iff]
        exact h
    rw [hstep, ih]
    cases previous with
    | none => simp [unsortedAfter, and_assoc]
    | some p =>
      rw [unsortedAfter_some]
      simp only [Option.toList_some, cons_append, nil_append,
        List.isChain_cons_cons, forall_mem_cons]
      tauto

structure PageFits (body : IndexBtreePageBody) : Prop where
  number : body.pageNumber ≠ 0
  kind : isKnownPageKind body.pageKind = true
  cells : ∀ c ∈ body.cells, CellFits (isInternalLike body) c
  ordered : body.cells.Pairwise fun a b => a.locator ≤ b.locator

theorem isLeafLike_eq (h : isKnownPageKind body.pageKind = true) :
    isLeafLike body = !isInternalLike body := by
  rw [isLeafLike, isInternalLike]
  cases hkind : body.pageKind with
  | root =>
    by_cases hlevel : body.treeLevel = 0
    · simp [hlevel]
    · have hpos : 0 < body.treeLevel := UInt16.pos_iff_ne_zero.mpr hlevel
      simp [hlevel, hpos]
  | internal => simp
  | leaf => simp
  | unknown =>
    rw [hkind] at h
    cases h

theorem validatePhysicalPageBody_ok_iff :
    validatePhysicalPageBody body = .ok () ↔ PageFits body := by
  rw [validatePhysicalPageBody, indexPageError, indexPageError, indexPageError, guard_eq_ok_iff,
    guard_eq_ok_iff, guard_eq_ok_iff, validateCells_ok_iff, List.isChain_iff_pairwise]
  constructor
  · rintro ⟨hnumber, hkind, -, hcells, hordered⟩
    exact ⟨hnumber, by simpa using hkind, hcells, hordered⟩
  · rintro ⟨hnumber, hkind, hcells, hordered⟩
    refine ⟨hnumber, ?_, ?_, hcells, hordered⟩
    · rw [hkind]
      exact Bool.false_ne_true
    · rw [isLeafLike_eq hkind]
      simp

/-! ## What the builder accepts -/

def freeSpace (cells : List IndexBtreeCell) (pageSize : UInt32) : Nat :=
  pageSize.toNat - kPageHeaderSerializedBytes - bodyBytes cells

/-- A body as the builder and the parser give it back. -/
def IndexBtreePageBody.settled (body : IndexBtreePageBody) (pageSize : UInt32) :
    IndexBtreePageBody :=
  { body with freeSpaceBytes := UInt32.ofNat (freeSpace body.cells pageSize) }

def IndexBtreePageBody.laidOut (body : IndexBtreePageBody) (pageSize : UInt32) :
    IndexBtreePageBodyResult :=
  { body := body.settled pageSize
    serialized := serializeBody body (freeSpace body.cells pageSize) (computeIndexBtreePageChecksum
        (serializeBody body (freeSpace body.cells pageSize) 0)) }

structure Buildable (body : IndexBtreePageBody) (pageSize : UInt32) : Prop where
  index : isTypedEngineIdentity body.indexUuid .object = true
  fits : PageFits body
  header : kPageHeaderSerializedBytes + kIndexBtreePageBodyHeaderBytes < pageSize.toNat
  room : bodyBytes body.cells ≤ pageSize.toNat - kPageHeaderSerializedBytes

theorem buildIndexBtreePageBody_ok_iff {r : IndexBtreePageBodyResult} :
    buildIndexBtreePageBody body pageSize = .ok r ↔
      Buildable body pageSize ∧ r = body.laidOut pageSize := by
  rw [buildIndexBtreePageBody, indexPageError, indexPageError, guard_eq_ok_iff,
    guard_eq_ok_iff, bind_eq_ok_iff]
  constructor
  · rintro ⟨hheader, hindex, ⟨⟩, hfits, h⟩
    rw [indexPageError, guard_eq_ok_iff] at h
    exact ⟨⟨by simpa using hindex, validatePhysicalPageBody_ok_iff.mp hfits,
      not_le.mp hheader, not_lt.mp h.1⟩, (Except.ok.inj h.2).symm⟩
  · rintro ⟨hb, rfl⟩
    refine ⟨not_le.mpr hb.header, ?_, (), validatePhysicalPageBody_ok_iff.mpr hb.fits, ?_⟩
    · rw [hb.index]
      exact Bool.false_ne_true
    · rw [indexPageError, guard_eq_ok_iff]
      exact ⟨not_lt.mpr hb.room, rfl⟩

/-! ## Reading the header -/

section Header

variable {free : Nat}

@[simp] theorem length_kIndexBtreeMagic : kIndexBtreeMagic.length = 8 := rfl

attribute [simp] Uuid.size_eq

theorem length_serializeHeader : (serializeHeader body free checksum).length =
      kIndexBtreePageBodyHeaderBytes := by
  simp [serializeHeader, kIndexBtreePageBodyHeaderBytes]

theorem loadLittle_of_bytesAt (h : bytesAt image offset width = littleBytes width n)
    (hn : n < 256 ^ width) : loadLittle image offset width = n := by
  rw [loadLittle, h, littleValue_littleBytes_of_lt hn]

theorem load16_of_bytesAt {x : UInt16} (h : bytesAt image offset 2 = littleBytes 2 x.toNat) :
    UInt16.ofNat (loadLittle image offset 2) = x := by
  rw [loadLittle_of_bytesAt h x.toNat_lt, UInt16.ofNat_toNat]

theorem load64_of_bytesAt {x : UInt64} (h : bytesAt image offset 8 = littleBytes 8 x.toNat) :
    UInt64.ofNat (loadLittle image offset 8) = x := by
  rw [loadLittle_of_bytesAt h x.toNat_lt, UInt64.ofNat_toNat]

theorem loadUuid_of_bytesAt {uuid : Uuid} (h : bytesAt image offset 16 = uuid.bytes) :
    loadUuid image offset = uuid := by
  cases uuid with
  | mk bytes size =>
    rw [loadUuid, dif_pos (h ▸ size)]
    exact Uuid.mk.injEq _ _ _ _ ▸ h

/-- The fields of an image, as they are read back. -/
structure Header (image : Bytes) (body : IndexBtreePageBody) (free : Nat) (checksum : UInt64) :
    Prop where
  magic : bytesAt image kOffsetMagic 8 = kIndexBtreeMagic
  headerBytes : loadLittle image kOffsetHeaderBytes 4 = kIndexBtreePageBodyHeaderBytes
  cellCount : loadLittle image kOffsetCellCount 4 = body.cells.length
  bodyBytes : loadLittle image kOffsetBodyBytes 4 = Btree.bodyBytes body.cells
  checksum : UInt64.ofNat (loadLittle image kOffsetBodyChecksum 8) = checksum
  indexUuid : loadUuid image kOffsetIndexUuid = body.indexUuid.value
  pageKind : IndexBtreePageKind.ofCode (loadLittle image kOffsetPageKind 2) = body.pageKind
  treeLevel : UInt16.ofNat (loadLittle image kOffsetTreeLevel 2) = body.treeLevel
  leftSibling : UInt64.ofNat (loadLittle image kOffsetLeftSibling 8) = body.leftSiblingPageNumber
  rightSibling : UInt64.ofNat (loadLittle image kOffsetRightSibling 8) = body.rightSiblingPageNumber
  parentPage : UInt64.ofNat (loadLittle image kOffsetParentPage 8) = body.parentPageNumber
  pageNumber : UInt64.ofNat (loadLittle image kOffsetPageNumber 8) = body.pageNumber
  freeSpace : loadLittle image kOffsetFreeSpaceBytes 4 = free

theorem header_serializeBody (hcount : body.cells.length < 256 ^ 4)
    (hbytes : bodyBytes body.cells < 256 ^ 4) (hfree : free < 256 ^ 4) :
    Header (serializeBody body free checksum) body free checksum := by
  have hkind : loadLittle (serializeBody body free checksum) kOffsetPageKind 2 =
      body.pageKind.code :=
    loadLittle_of_bytesAt (bytesAt_flatten 7 rfl (by simp [kOffsetPageKind]) (by simp))
      (by cases body.pageKind <;> decide)
  have hpageKind : IndexBtreePageKind.ofCode body.pageKind.code = body.pageKind := by
    cases body.pageKind <;> rfl
  refine ⟨bytesAt_flatten 0 rfl ?_ ?_, loadLittle_of_bytesAt (bytesAt_flatten 1 rfl ?_ ?_) ?_,
    loadLittle_of_bytesAt (bytesAt_flatten 2 rfl ?_ ?_) hcount,
    loadLittle_of_bytesAt (bytesAt_flatten 3 rfl ?_ ?_) hbytes,
    load64_of_bytesAt (bytesAt_flatten 5 rfl ?_ ?_),
    loadUuid_of_bytesAt (bytesAt_flatten 6 rfl ?_ ?_), hkind ▸ hpageKind,
    load16_of_bytesAt (bytesAt_flatten 8 rfl ?_ ?_),
    load64_of_bytesAt (bytesAt_flatten 10 rfl ?_ ?_),
    load64_of_bytesAt (bytesAt_flatten 11 rfl ?_ ?_),
    load64_of_bytesAt (bytesAt_flatten 12 rfl ?_ ?_),
    load64_of_bytesAt (bytesAt_flatten 13 rfl ?_ ?_),
    loadLittle_of_bytesAt (bytesAt_flatten 14 rfl ?_ ?_) hfree⟩
  all_goals simp <;> decide

end Header

/-! ## Reading the cells -/

section Cells

variable {uuid : TypedUuid} {bodyBytes : Nat}

theorem generatedRowUuid_iff :
    generatedRowUuid uuid = true ↔ uuid.kind = .row ∧ isEngineIdentityUuid uuid.value = true := by
  rw [generatedRowUuid, isTypedEngineIdentity, Bool.and_eq_true, Bool.and_eq_true, beq_iff_eq]
  constructor
  · rintro ⟨⟨hkind, -⟩, hid⟩
    exact ⟨hkind, hid⟩
  · rintro ⟨hkind, hid⟩
    have hnil : uuid.value.isNil = false := by
      rw [isEngineIdentityUuid, Bool.and_eq_true, Bool.and_eq_true] at hid
      simpa using hid.1.1
    exact ⟨⟨hkind, by rw [TypedUuid.valid, hkind, hnil]; rfl⟩, hid⟩

theorem valid_of_generatedRowUuid (h : generatedRowUuid uuid = true) : uuid.valid = true := by
  rw [generatedRowUuid, isTypedEngineIdentity, Bool.and_eq_true, Bool.and_eq_true] at h
  exact h.1.2

theorem parseRowUuid_of_bytesAt {code key : String}
    (hrow : generatedRowUuid uuid = true) (h : bytesAt image offset 16 = storedUuid uuid) :
    parseRowUuid image offset code key i = .ok uuid := by
  have hvalid := valid_of_generatedRowUuid hrow
  have hnil : uuid.value.isNil = false := by
    rw [TypedUuid.valid, Bool.and_eq_true] at hvalid
    simpa using hvalid.2
  rw [storedUuid, if_pos hvalid] at h
  have htyped : (⟨.row, uuid.value⟩ : TypedUuid) = uuid := by
    rw [← (generatedRowUuid_iff.mp hrow).1]
  have hid : isTypedEngineIdentity uuid .row = true := hrow
  simp only [parseRowUuid, loadUuid_of_bytesAt h, hnil, htyped, hid,
    Bool.not_true, Bool.false_eq_true, if_false]

theorem length_storedUuid (uuid : TypedUuid) : (storedUuid uuid).length = 16 := by
  rw [storedUuid]
  split
  · exact uuid.value.size_eq
  · rfl

theorem length_serializeCell (cell : IndexBtreeCell) :
    (serializeCell cell).length = kCellHeaderBytes + cell.encodedKey.length := by
  simp [serializeCell, kCellHeaderBytes, length_storedUuid]
  omega

theorem flags_high (cell : IndexBtreeCell) : (flagsFor cell &&& 1 != 0) = cell.highKey := by
  rw [flagsFor]
  split <;> split <;> split <;> simp_all <;> decide

theorem flags_deleted (cell : IndexBtreeCell) : (flagsFor cell &&& 2 != 0) = cell.deleted := by
  rw [flagsFor]
  split <;> split <;> split <;> simp_all <;> decide

theorem flags_key (h : cell.encodedKey ≠ []) : (flagsFor cell &&& 4 != 0) = true := by
  rw [flagsFor]
  split <;> split <;> decide

section

variable (himage : image = pre ++ (serializeCell cell ++ post))
include himage

theorem bytesAt_cell (h : bytesAt (serializeCell cell ++ post) offset width = field) :
    bytesAt image (pre.length + offset) width = field := by
  rw [himage, bytesAt_append_add, h]

theorem parseCell_serializeCell (hfits : CellFits internalLike cell)
    (hlen : cell.encodedKey.length < 256 ^ 4)
    (hroom : pre.length + (kCellHeaderBytes + cell.encodedKey.length) ≤ bodyBytes) :
    parseCell image bodyBytes i pre.length =
      .ok (cell, pre.length + (kCellHeaderBytes + cell.encodedKey.length)) := by
  have hflags : UInt16.ofNat (loadLittle image (pre.length + kCellOffsetFlags) 2) = flagsFor cell :=
    load16_of_bytesAt (bytesAt_cell himage (bytesAt_flatten 0 rfl rfl (by simp)))
  have hordinal : UInt16.ofNat (loadLittle image (pre.length + kCellOffsetKeyOrdinal) 2) =
      cell.keyOrdinal :=
    load16_of_bytesAt (bytesAt_cell himage (bytesAt_flatten 1 rfl rfl (by simp)))
  have hpayload : loadLittle image (pre.length + kCellOffsetPayloadBytes) 4 =
      cell.encodedKey.length :=
    loadLittle_of_bytesAt (bytesAt_cell himage (bytesAt_flatten 2 rfl rfl (by simp))) hlen
  have hchecksum : UInt64.ofNat (loadLittle image (pre.length + kCellOffsetPayloadChecksum) 8) =
      fnv1a64 cell.encodedKey :=
    load64_of_bytesAt (bytesAt_cell himage (bytesAt_flatten 3 rfl rfl (by simp)))
  have hchild : UInt64.ofNat (loadLittle image (pre.length + kCellOffsetChildPageNumber) 8) =
      cell.childPageNumber :=
    load64_of_bytesAt (bytesAt_cell himage (bytesAt_flatten 4 rfl rfl (by simp)))
  have hrow : bytesAt image (pre.length + kCellOffsetRowUuid) 16 = storedUuid cell.rowUuid :=
    bytesAt_cell himage (bytesAt_flatten 5 rfl rfl (length_storedUuid _))
  have hversion : bytesAt image (pre.length + kCellOffsetVersionUuid) 16 =
      storedUuid cell.versionUuid :=
    bytesAt_cell himage (bytesAt_flatten 6 rfl (by simp [length_storedUuid, kCellOffsetVersionUuid])
      (length_storedUuid _))
  have hkeyBytes : bytesAt image (pre.length + kCellHeaderBytes) cell.encodedKey.length =
        cell.encodedKey :=
    bytesAt_cell himage (bytesAt_flatten 8 rfl (by simp [length_storedUuid, kCellHeaderBytes]) rfl)
  have hnil := ne_nil_of_orderPreserving hfits.key
  have hstored : checkStoredKey (flagsFor cell) cell i = .ok () := by
    rw [checkStoredKey, if_pos (flags_key hnil)]
    exact validateEncodedKey_ok_iff.mpr hfits.key
  rw [parseCell, if_neg (by omega)]
  simp only [hflags, hordinal, hpayload, hchecksum, hchild, hkeyBytes,
    parseRowUuid_of_bytesAt hfits.row hrow,
    parseRowUuid_of_bytesAt hfits.version hversion, bind, Except.bind,
    flags_high, flags_deleted, flags_key hnil, if_true, hstored]
  rw [if_neg (by omega), if_neg (by simp), Nat.add_assoc]

end

/-- The room the cells take behind the header. -/
def cellsBytes (cells : List IndexBtreeCell) : Nat :=
  (cells.map fun cell => kCellHeaderBytes + cell.encodedKey.length).sum

theorem cellsBytes_cons (cell : IndexBtreeCell) (cells : List IndexBtreeCell) :
    cellsBytes (cell :: cells) = kCellHeaderBytes + cell.encodedKey.length + cellsBytes cells := by
  rw [cellsBytes, cellsBytes, map_cons, List.sum_cons]

theorem length_flatMap_serializeCell (cells : List IndexBtreeCell) :
    (cells.flatMap serializeCell).length = cellsBytes cells := by
  induction cells with
  | nil => rfl
  | cons cell cells ih =>
    rw [flatMap_cons, length_append, ih, length_serializeCell, cellsBytes_cons]

theorem parseCells_flatMap (hfits : ∀ c ∈ cells, CellFits internalLike c)
    (hlen : cellsBytes cells < 256 ^ 4) (hroom : pre.length + cellsBytes cells ≤ bodyBytes) :
    parseCells (pre ++ (cells.flatMap serializeCell ++ post)) bodyBytes cells.length i pre.length =
        .ok (cells, pre.length + cellsBytes cells) := by
  induction cells generalizing pre i with
  | nil => rfl
  | cons cell cells ih =>
    rw [cellsBytes_cons] at hlen hroom
    have hpre : (pre ++ serializeCell cell).length =
        pre.length + (kCellHeaderBytes + cell.encodedKey.length) := by
      rw [length_append, length_serializeCell]
    have hrest : parseCells ((pre ++ serializeCell cell) ++
        (cells.flatMap serializeCell ++ post)) bodyBytes cells.length (i + 1)
        (pre ++ serializeCell cell).length = .ok (cells, (pre ++ serializeCell cell).length +
            cellsBytes cells) := ih (forall_mem_cons.mp hfits).2 (by omega) (by rw [hpre]; omega)
    rw [hpre, append_assoc] at hrest
    rw [flatMap_cons, append_assoc, length_cons, parseCells,
      parseCell_serializeCell rfl (hfits cell mem_cons_self) (by omega) (by omega)]
    simp only [bind, Except.bind, hrest, cellsBytes_cons, Nat.add_assoc]

end Cells

/-! ## The round trip -/

theorem bodyBytes_eq (cells : List IndexBtreeCell) :
    bodyBytes cells = kIndexBtreePageBodyHeaderBytes + cellsBytes cells := rfl

theorem length_serializeBody (free : Nat) :
    (serializeBody body free checksum).length = bodyBytes body.cells + free := by
  rw [serializeBody, length_append, length_append,
    length_serializeHeader, length_flatMap_serializeCell, List.length_replicate,
    bodyBytes_eq, Nat.add_assoc]

theorem length_le_cellsBytes (cells : List IndexBtreeCell) : cells.length ≤ cellsBytes cells := by
  induction cells with
  | nil => exact Nat.le_refl _
  | cons cell cells ih =>
    rw [cellsBytes_cons, length_cons, kCellHeaderBytes]
    omega

theorem serializeBody_checksum_field (body : IndexBtreePageBody) (free : Nat) :
    ∃ front back : Bytes, front.length = kOffsetBodyChecksum ∧
      ∀ c : UInt64, serializeBody body free c = front ++ (littleBytes 8 c.toNat ++ back) := by
  refine ⟨List.flatten [kIndexBtreeMagic, littleBytes 4 kIndexBtreePageBodyHeaderBytes,
      littleBytes 4 body.cells.length, littleBytes 4 (bodyBytes body.cells), List.replicate 4 0],
    List.flatten [body.indexUuid.value.bytes,
      littleBytes 2 body.pageKind.code, littleBytes 2 body.treeLevel.toNat,
      List.replicate 4 0, littleBytes 8 body.leftSiblingPageNumber.toNat,
      littleBytes 8 body.rightSiblingPageNumber.toNat, littleBytes 8 body.parentPageNumber.toNat,
      littleBytes 8 body.pageNumber.toNat, littleBytes 4 free, List.replicate 4 0,
      body.cells.flatMap serializeCell ++ List.replicate free 0], ?_, fun c => ?_⟩
  · simp [kOffsetBodyChecksum]
  · simp only [serializeBody, serializeHeader, flatten_cons,
      List.flatten_nil, append_nil, append_assoc]

/-- The checksum does not depend on the value its field holds. -/
theorem computeChecksum_serializeBody (free : Nat) :
    computeIndexBtreePageChecksum (serializeBody body free checksum) =
      computeIndexBtreePageChecksum (serializeBody body free 0) := by
  obtain ⟨front, back, hfront, himage⟩ := serializeBody_checksum_field body free
  have hzeroed : ∀ c, computeIndexBtreePageChecksum (serializeBody body free c) =
        fnv1a64 (front ++ (List.replicate 8 0 ++ back)) := by
    intro c
    have hlen : (front ++ littleBytes 8 c.toNat).length = kOffsetBodyChecksum + 8 := by
      rw [length_append, hfront, length_littleBytes]
    have hlong : kOffsetBodyChecksum + 8 ≤ (front ++ (littleBytes 8 c.toNat ++ back)).length := by
      rw [← append_assoc, length_append, hlen]
      exact Nat.le_add_right _ _
    have hdrop : (front ++ (littleBytes 8 c.toNat ++ back)).drop
        (kOffsetBodyChecksum + 8) = back := by
      rw [← append_assoc, List.drop_left' hlen]
    rw [himage, computeIndexBtreePageChecksum, if_pos hlong, List.take_left' hfront, hdrop]
  rw [hzeroed, hzeroed]

section

variable (hb : Buildable body pageSize)
include hb

theorem cellsBytes_lt : cellsBytes body.cells < 256 ^ 4 := by
  have hroom := hb.room
  have hsize := pageSize.toNat_lt
  rw [bodyBytes_eq] at hroom
  omega

theorem header_laidOut : Header (body.laidOut pageSize).serialized body
    (freeSpace body.cells pageSize)
    (computeIndexBtreePageChecksum (serializeBody body (freeSpace body.cells pageSize) 0)) := by
  have hroom := hb.room
  have hsize := pageSize.toNat_lt
  refine header_serializeBody ((length_le_cellsBytes _).trans_lt (cellsBytes_lt hb)) ?_ ?_
  · omega
  · rw [freeSpace]
    omega

theorem checkPageHeader_laidOut (n : UInt64) :
    checkPageHeader (body.laidOut pageSize).serialized n = .ok () := by
  have h := header_laidOut hb
  rw [checkPageHeader]
  simp only [h.magic, h.headerBytes, h.bodyBytes, h.freeSpace, h.checksum]
  simp only [IndexBtreePageBody.laidOut, length_serializeBody, computeChecksum_serializeBody]
  rw [if_neg (by rw [bodyBytes_eq]; omega), if_neg (by simp), if_neg (by simp), if_neg (by simp),
    if_neg (by rw [bodyBytes_eq]; omega), if_neg (by omega)]

theorem parseHeaderFields_laidOut :
    parseHeaderFields (body.laidOut pageSize).serialized body.pageNumber =
      .ok { body.settled pageSize with cells := [] } := by
  have h := header_laidOut hb
  have hkind : body.indexUuid.kind = .object := by
    have hindex := hb.index
    rw [isTypedEngineIdentity, Bool.and_eq_true, Bool.and_eq_true, beq_iff_eq] at hindex
    exact hindex.1.1
  have hindex : (⟨.object, body.indexUuid.value⟩ : TypedUuid) =
      body.indexUuid := by rw [← hkind]
  rw [parseHeaderFields]
  simp only [storedPageNumber, h.pageNumber, h.indexUuid, h.parentPage, h.leftSibling,
    h.rightSibling, h.freeSpace, h.treeLevel, h.pageKind, hindex, hb.fits.number, if_false,
      hb.index, hb.fits.kind, ne_eq]
  rfl

theorem parse_laidOut :
    parseIndexBtreePageBody (body.laidOut pageSize).serialized
      body.pageNumber = .ok (body.laidOut pageSize) := by
  have h := header_laidOut hb
  have hparsed : parseCells (body.laidOut pageSize).serialized
      (bodyBytes body.cells) body.cells.length 0 kIndexBtreePageBodyHeaderBytes =
        .ok (body.cells, bodyBytes body.cells) := by
    have hheader := @length_serializeHeader body (computeIndexBtreePageChecksum
        (serializeBody body (freeSpace body.cells pageSize) 0)) (freeSpace body.cells pageSize)
    rw [bodyBytes_eq, ← hheader]
    exact parseCells_flatMap hb.fits.cells (cellsBytes_lt hb) (Nat.le_refl _)
  have hfits : PageFits { body.settled pageSize with cells := body.cells } :=
    ⟨hb.fits.number, hb.fits.kind, hb.fits.cells, hb.fits.ordered⟩
  rw [parseIndexBtreePageBody, checkPageHeader_laidOut hb, parseHeaderFields_laidOut hb]
  simp only [bind, Except.bind, h.bodyBytes, h.cellCount, hparsed, ne_eq,
    validatePhysicalPageBody_ok_iff.mpr hfits]
  rfl

end

/-- What was built is read back whole: the given body with the room that is left
on its page. -/
theorem build_parse_round_trip {r : IndexBtreePageBodyResult}
    (h : buildIndexBtreePageBody body pageSize = .ok r) :
    parseIndexBtreePageBody r.serialized body.pageNumber = .ok r ∧
      r.body = { body with freeSpaceBytes := UInt32.ofNat (freeSpace body.cells pageSize) } := by
  obtain ⟨hb, rfl⟩ := buildIndexBtreePageBody_ok_iff.mp h
  exact ⟨parse_laidOut hb, rfl⟩

/-- The root over that leaf and another one. -/
def twoFenceRoot : IndexBtreePageBody :=
  { indexUuid := sampleIndex, pageNumber := 1, pageKind := .root, treeLevel := 1
    cells := [{ sampleCell [1] 1 with highKey := true, childPageNumber := 7 },
      { sampleCell [3] 3 with highKey := true, childPageNumber := 8 }] }

theorem twoCells_round_trip :
    (∃ r, buildIndexBtreePageBody twoCellLeaf 512 = .ok r ∧ r.body.cells = twoCellLeaf.cells ∧
      parseIndexBtreePageBody r.serialized 7 = .ok r) ∧
    ∃ r, buildIndexBtreePageBody twoFenceRoot 512 = .ok r ∧ r.body.cells = twoFenceRoot.cells ∧
      parseIndexBtreePageBody r.serialized 1 = .ok r := by
  obtain ⟨leaf, hleaf, hcells⟩ : ∃ r, buildIndexBtreePageBody twoCellLeaf 512 = .ok r ∧
      r.body.cells = twoCellLeaf.cells := by
    decide +kernel
  obtain ⟨root, hroot, hfences⟩ : ∃ r, buildIndexBtreePageBody twoFenceRoot 512 = .ok r ∧
      r.body.cells = twoFenceRoot.cells := by
    decide +kernel
  exact ⟨⟨leaf, hleaf, hcells, (build_parse_round_trip hleaf).1⟩,
    root, hroot, hfences, (build_parse_round_trip hroot).1⟩

/-- The size of a body as the builder adds it up, in 32 bits. -/
def bodyBytes32 (cells : List IndexBtreeCell) : UInt32 :=
  cells.foldl (fun bytes cell => bytes +
    (UInt32.ofNat kCellHeaderBytes + UInt32.ofNat cell.encodedKey.length))
    (UInt32.ofNat kIndexBtreePageBodyHeaderBytes)

theorem bodyBytes32_singleton : bodyBytes32 [cell] = UInt32.ofNat (bodyBytes [cell]) := by
  rw [bodyBytes32, bodyBytes, List.foldl_cons, List.foldl_nil, List.map_singleton,
    List.sum_singleton, UInt32.ofNat_add, UInt32.ofNat_add]

/-- The room on the page is not taken from the given body. And a cell of less than
four gigabytes brings the size of its body round to 60 bytes, which fit on every
page. -/
theorem free_space_recounted :
    (∃ r, buildIndexBtreePageBody twoCellLeaf 512 = .ok r ∧
      ∃ r', parseIndexBtreePageBody r.serialized 7 = .ok r' ∧ r'.body ≠ twoCellLeaf) ∧
    ∃ cell, CellFits false cell ∧ kCellHeaderBytes + cell.encodedKey.length < 2 ^ 32 ∧
      bodyBytes32 [cell] = 60 := by
  -- Only the length of the key is looked at.
  obtain ⟨key, hkey⟩ : ∃ key : Bytes, key.length = 2 ^ 32 - 104 :=
    ⟨List.replicate _ 0, List.length_replicate⟩
  have hlength : (sampleCell key 1).encodedKey.length = 4 + (2 ^ 32 - 104) := by
    rw [← hkey]
    exact List.length_append
  have hrow : generatedRowUuid ⟨.row, engineUuid 1⟩ = true := by decide
  refine ⟨by decide +kernel, sampleCell key 1, ?_, ?_, ?_⟩
  · exact ⟨isOrderPreservingEncodedKey_iff.mpr ⟨key, rfl⟩, hrow, hrow, rfl,
      fun _ => rfl, fun _ => rfl⟩
  · rw [hlength]
    decide
  · rw [bodyBytes32_singleton, bodyBytes, List.map_singleton, List.sum_singleton, hlength]
    rfl

end ScratchBird.Btree
