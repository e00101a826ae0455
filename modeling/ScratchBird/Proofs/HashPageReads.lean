import ScratchBird.Index.HashPage
import ScratchBird.Lib.Refusal

/-!
# What parsing a hash index page reads

The header and a directory are read inside the image: the directory loop tests a
sum that cannot wrap. The collision roots and the entry headers have a fixed
size, so their sums can wrap only at the very end of an image of four gigabytes.
The key of an entry has the length the page says it has: there the sum wraps for
a page of any size, and the copy that follows leaves it.

`RootsInside` and `EntriesInside` follow the roots and entries that the parser
gets to, on the bytes of the image alone, and ask of each that it ends inside
the image where the tests let it pass.
-/

namespace ScratchBird.HashIndex

open Lib Lib.ImageReader
open Storage (isTypedEngineIdentity)

variable {image : Bytes} {extent : PageExtent} {request : ParseRequest} {α : Type}
  {offset count i bodyBytes entryHeaderBytes : Nat} {header : IndexHashPageBody}

def field (image : Bytes) (offset width : Nat) : Nat := littleValue (bytesAt image offset width)

/-! ## The header -/

/-- The sizes as they stand in the header of an image. -/
def extentOf (image : Bytes) : PageExtent :=
  ⟨field image kOffsetHeaderBytes 4, field image kOffsetBodyBytes 4⟩

/-- A header whose sizes and checksum are right. -/
def ExtentKept (image : Bytes) : Prop :=
  kIndexHashPageBodyHeaderBytesLegacy96 ≤ image.length ∧
    bytesAt image kOffsetMagic 8 = kIndexHashMagic ∧
    ((extentOf image).headerBytes = kIndexHashPageBodyHeaderBytes ∨
      (extentOf image).headerBytes = kIndexHashPageBodyHeaderBytesLegacy96) ∧
    UInt64.ofNat (field image kOffsetBodyChecksum 8) = computeIndexHashPageChecksum image ∧
    (extentOf image).bodyBytes ≤ image.length ∧
    (extentOf image).headerBytes ≤ (extentOf image).bodyBytes

theorem checkPageHeader_accepts_iff {pageNumber : UInt64} :
    (checkPageHeader pageNumber image).2 = .ok extent ↔
      extentOf image = extent ∧ ExtentKept image := by
  simp only [checkPageHeader, accepts_imageSize_bind, accepts_require_bind, accepts_load_bind,
    accepts_copy_bind, accepts_pure, bytesAt_self]
  rw [and_comm (a := extentOf image = extent), ExtentKept]
  simp only [and_assoc]
  exact Iff.rfl

theorem checkPageHeader_safe {pageNumber : UInt64} : Safe image (checkPageHeader pageNumber) := by
  simp only [checkPageHeader, safe_imageSize_bind, safe_require_bind]
  intro hsize
  have hin : ∀ {offset width : Nat}, offset + width ≤ 96 → offset + width ≤ image.length :=
    fun h => Nat.le_trans h hsize
  simp only [safe_load_bind, safe_require_bind, safe_copy_bind, safe_pure, Nat.zero_add]
  exact ⟨hin (by decide), fun _ => ⟨hin (by decide), fun _ => ⟨hin (by decide), Nat.le_refl _,
    fun _ => ⟨hin (by decide), fun _ => trivial⟩⟩⟩⟩

/-- The header fields of an image, as they are kept for the rest of the page. -/
def headerOf (request : ParseRequest) (image : Bytes) : IndexHashPageBody :=
  let hashSeed := UInt64.ofNat (field image kOffsetHashSeed 8)
  let hashAlgorithmVersion := UInt16.ofNat (field image kOffsetAlgorithmVersion 2)
  { indexUuid := ⟨.object, storedUuid (bytesAt image kOffsetIndexUuid 16)⟩
    pageNumber :=
      if UInt64.ofNat (field image kOffsetPageNumber 8) = 0 then request.pageNumber
      else UInt64.ofNat (field image kOffsetPageNumber 8)
    pageKind := .ofCode (field image kOffsetPageKind 2)
    hashSeed
    hashSeedHigh64 :=
      if kIndexHashPageBodyHeaderBytes ≤ (extentOf image).headerBytes then
        UInt64.ofNat (field image kOffsetHashSeedHigh64 8)
      else deriveSeedHigh64 hashSeed hashAlgorithmVersion
    hashAlgorithmVersion
    testFixtureForceRouteHashCollision := request.testFixtureForceRouteHashCollision
    testFixtureForceFingerprintCollision := request.testFixtureForceFingerprintCollision
    bucketIndex := UInt32.ofNat (field image kOffsetBucketIndex 4)
    bucketCount := UInt32.ofNat (field image kOffsetBucketCount 4)
    overflowPageNumber := UInt64.ofNat (field image kOffsetOverflowPageNumber 8)
    owningBucketPageNumber := UInt64.ofNat (field image kOffsetOwningBucketPageNumber 8)
    freeSpaceBytes := UInt32.ofNat (field image kOffsetFreeSpaceBytes 4) }

/-- Header fields that the request lets pass. -/
def FieldsKept (request : ParseRequest) (image : Bytes) : Prop :=
  let header := headerOf request image
  isKnownPageKind header.pageKind = true ∧
    isSupportedHashAlgorithm header.hashAlgorithmVersion = true ∧
    (request.expectedHashAlgorithmVersion = 0 ∨
      header.hashAlgorithmVersion = request.expectedHashAlgorithmVersion) ∧
    (request.expectedHashSeed = 0 ∨ header.hashSeed = request.expectedHashSeed) ∧
    (request.expectedHashSeedHigh64 = 0 ∨
      header.hashSeedHigh64 = request.expectedHashSeedHigh64) ∧
    isTypedEngineIdentity header.indexUuid .object = true ∧
    header.pageNumber = request.pageNumber ∧
    field image kOffsetFreeSpaceBytes 4 = image.length - (extentOf image).bodyBytes

theorem accepts_loadSeedHigh64_bind {headerBytes : Nat} {seed : UInt64} {version : UInt16}
    {g : UInt64 → ImageReader DiagnosticRecord α} :
    ((loadSeedHigh64 headerBytes seed version >>= g) image).2 =
      (g (if kIndexHashPageBodyHeaderBytes ≤ headerBytes then
        UInt64.ofNat (field image kOffsetHashSeedHigh64 8) else deriveSeedHigh64 seed version)
        image).2 := by
  rw [loadSeedHigh64]
  split <;> rfl

theorem parseHeaderFields_accepts_iff :
    (parseHeaderFields request (extentOf image) image).2 = .ok header ↔
      headerOf request image = header ∧ FieldsKept request image := by
  simp only [parseHeaderFields, accepts_imageSize_bind, accepts_require_bind, accepts_load_bind,
    accepts_copy_bind, accepts_pure, accepts_loadSeedHigh64_bind]
  rw [and_comm (a := headerOf request image = header), FieldsKept]
  simp only [and_assoc]
  exact Iff.rfl

theorem parseHeaderFields_safe (hextent : ExtentKept image) :
    Safe image (parseHeaderFields request (extentOf image)) := by
  obtain ⟨hsize, -, -, -, hbody, hleast⟩ := hextent
  have hin : ∀ {offset width : Nat}, offset + width ≤ 96 → offset + width ≤ image.length :=
    fun h => Nat.le_trans h hsize
  have hseed : ∀ {seed version} {g : UInt64 → ImageReader DiagnosticRecord IndexHashPageBody},
      (∀ high, Safe image (g high)) →
        Safe image (loadSeedHigh64 (extentOf image).headerBytes seed version >>= g) := by
    intro seed version g hg
    rw [loadSeedHigh64]
    split
    · next hlong =>
      simp only [bind_assoc, pure_bind, safe_load_bind]
      exact ⟨Nat.le_trans hlong (Nat.le_trans hleast hbody), hg _⟩
    · rw [pure_bind]
      exact hg _
  simp only [parseHeaderFields, safe_load_bind, safe_require_bind]
  refine ⟨hin (by decide), fun _ => ⟨hin (by decide), fun _ => ⟨hin (by decide),
    hseed fun high => ?_⟩⟩⟩
  simp only [safe_load_bind, safe_require_bind, safe_copy_bind, safe_imageSize_bind, safe_pure]
  exact fun _ _ _ => ⟨hin (by decide), fun _ => ⟨hin (by decide), fun _ => ⟨hin (by decide),
    hin (by decide), hin (by decide), hin (by decide), hin (by decide), fun _ => trivial⟩⟩⟩

/-! ## What stands behind the header -/

theorem parseDirectory_safe (hbody : bodyBytes ≤ image.length) :
    Safe image (parseDirectory bodyBytes count i offset) := by
  induction count generalizing i offset with
  | zero => exact safe_pure _
  | succ count ih =>
    simp only [parseDirectory, safe_require_bind, safe_load_bind, safe_bind_pure]
    exact fun hfits => ⟨Nat.le_trans hfits hbody, ih⟩

/-- The collision roots that the parser gets to, and what follows them at the
offset behind them. -/
def RootsInside (image : Bytes) (bodyBytes : Nat) (rest : Nat → Prop) : Nat → Nat → Prop
  | 0, offset => rest offset
  | count + 1, offset => sum32 offset kCollisionRootBytes ≤ bodyBytes →
      offset + kRootOffsetEntryOrdinal + 2 ≤ image.length ∧
        RootsInside image bodyBytes rest count (sum32 offset kCollisionRootBytes)

theorem safe_parseCollisionRoots_bind {rest : Nat → Prop}
    {f : List IndexHashCollisionRoot × Nat → ImageReader DiagnosticRecord α}
    (hrest : ∀ roots next, Safe image (f (roots, next)) ↔ rest next) :
    Safe image (parseCollisionRoots bodyBytes count i offset >>= f) ↔
      RootsInside image bodyBytes rest count offset := by
  induction count generalizing i offset f with
  | zero => exact hrest [] offset
  | succ count ih =>
    simp only [parseCollisionRoots, requireFits, bind_assoc, pure_bind, safe_require_bind,
      safe_load_bind, RootsInside, kRootOffsetHash, kRootOffsetPageNumber, kRootOffsetEntryOrdinal]
    refine forall_congr' fun _ => ?_
    rw [ih fun roots next => hrest (_ :: roots) next]
    constructor
    · rintro ⟨-, -, h⟩
      exact h
    · rintro ⟨hroot, h⟩
      exact ⟨by omega, by omega, hroot, h⟩

/-- The fingerprint of the entry at an offset, where it has one. -/
def fingerprintOf (image : Bytes) (present : Bool) (offset : Nat) : UInt64 × UInt64 × UInt16 :=
  if present then
    ( UInt64.ofNat (field image (offset + kEntryOffsetFingerprintLow64) 8)
    , UInt64.ofNat (field image (offset + kEntryOffsetFingerprintHigh64) 8)
    , UInt16.ofNat (field image (offset + kEntryOffsetFingerprintAlgorithm) 2) )
  else (0, 0, 0)

/-- The entry at an offset, once its key has been found. -/
def entryOf (image : Bytes) (offset key : Nat) : IndexHashEntry :=
  let flags := UInt16.ofNat (field image (offset + kEntryOffsetFlags) 2)
  let fingerprint := fingerprintOf image (flags &&& 2 != 0) offset
  { keyHash := UInt64.ofNat (field image (offset + kEntryOffsetKeyHash) 8)
    keyFingerprintLow64 := fingerprint.1
    keyFingerprintHigh64 := fingerprint.2.1
    fingerprintAlgorithmVersion := fingerprint.2.2
    fingerprintPresent := flags &&& 2 != 0
    encodedKey := bytesAt image key (field image (offset + kEntryOffsetKeyBytes) 4)
    rowUuid := storedLocator (bytesAt image (offset + kEntryOffsetRowUuid) 16)
    versionUuid := storedLocator (bytesAt image (offset + kEntryOffsetVersionUuid) 16)
    deleted := flags &&& 1 != 0
    nextCollisionPageNumber := UInt64.ofNat (field image (offset + kEntryOffsetNextPage) 8)
    nextCollisionOrdinal := UInt16.ofNat (field image (offset + kEntryOffsetNextOrdinal) 2) }

/-- The entries from an offset on that the parser gets to: where the tests on
32-bit sums let an entry pass, its fields and its key end inside the image. -/
def EntriesInside (image : Bytes) (header : IndexHashPageBody) (bodyBytes : Nat) :
    Nat → Nat → Nat → Prop
  | 0, _, _ => True
  | count + 1, i, offset =>
    let entryHeaderBytes := entryHeaderBytesForAlgorithm header.hashAlgorithmVersion
    let hasFingerprint := UInt16.ofNat (field image (offset + kEntryOffsetFlags) 2) &&& 2 != 0
    let key := sum32 offset entryHeaderBytes
    let keyBytes := field image (offset + kEntryOffsetKeyBytes) 4
    key ≤ bodyBytes →
      offset + kEntryOffsetNextPage + 8 ≤ image.length ∧
      ((hasFingerprint = true → kEntryHeaderBytesV3 ≤ entryHeaderBytes) →
        (hasFingerprint = true → offset + kEntryOffsetFingerprintAlgorithm + 2 ≤ image.length) ∧
        (sum32 key keyBytes ≤ bodyBytes →
          key + keyBytes ≤ image.length ∧
          (UInt64.ofNat (field image (offset + kEntryOffsetKeyChecksum) 8) =
              fnv1a64 (bytesAt image key keyBytes) →
            validateEntryBasics (entryOf image offset key) header i = .ok () →
              EntriesInside image header bodyBytes count (i + 1) (sum32 key keyBytes))))

theorem safe_loadFingerprint_bind {present : Bool}
    {g : UInt64 × UInt64 × UInt16 → ImageReader DiagnosticRecord α} :
    Safe image (loadFingerprint present entryHeaderBytes i offset >>= g) ↔
      ((present = true → kEntryHeaderBytesV3 ≤ entryHeaderBytes) →
        (present = true → offset + kEntryOffsetFingerprintAlgorithm + 2 ≤ image.length) ∧
        Safe image (g (fingerprintOf image present offset))) := by
  cases present with
  | false => simp [loadFingerprint, fingerprintOf]
  | true =>
    simp only [loadFingerprint, if_true, bind_assoc, pure_bind, safe_require_bind, safe_load_bind,
      true_imp_iff, kEntryOffsetFingerprintLow64, kEntryOffsetFingerprintHigh64,
      kEntryOffsetFingerprintAlgorithm]
    refine forall_congr' fun _ => ?_
    constructor
    · rintro ⟨-, -, h⟩
      exact h
    · rintro ⟨hlast, h⟩
      exact ⟨by omega, by omega, hlast, h⟩

theorem safe_parseEntries_iff :
    Safe image (parseEntries header bodyBytes count i offset) ↔
      EntriesInside image header bodyBytes count i offset := by
  induction count generalizing i offset with
  | zero => exact ⟨fun _ => trivial, fun _ => safe_pure _⟩
  | succ count ih =>
    rw [parseEntries, EntriesInside, parseEntry]
    simp only [bind_assoc, pure_bind, requireFits, safe_load_bind, safe_require_bind,
      safe_copy_bind, safe_check_bind, safe_bind_pure, safe_loadFingerprint_bind,
      Unique.forall_iff, PUnit.default_eq_unit, ih]
    refine forall_congr' fun _ => ?_
    constructor
    · rintro ⟨-, -, -, -, -, -, -, h⟩
      exact h
    · rintro ⟨hlast, h⟩
      rw [kEntryOffsetNextPage] at hlast
      refine ⟨?_, ?_, ?_, ?_, ?_, ?_, ?_, hlast, h⟩ <;>
        simp only [kEntryOffsetFlags, kEntryOffsetNextOrdinal, kEntryOffsetKeyBytes,
          kEntryOffsetKeyChecksum, kEntryOffsetKeyHash, kEntryOffsetRowUuid,
          kEntryOffsetVersionUuid] <;> omega

/-- Behind the header of a bucket or overflow page. -/
def ContentInside (image : Bytes) (header : IndexHashPageBody) : Prop :=
  header.pageKind ≠ .directory → RootsInside image (extentOf image).bodyBytes
    (EntriesInside image header (extentOf image).bodyBytes (field image kOffsetEntryCount 2) 0)
    (field image kOffsetCollisionRootCount 2) (extentOf image).headerBytes

theorem safe_parseContent_iff (hextent : ExtentKept image) :
    Safe image (parseContent request (extentOf image) header) ↔ ContentInside image header := by
  obtain ⟨hsize, -, -, -, hbody, -⟩ := hextent
  have hin : ∀ {offset width : Nat}, offset + width ≤ 96 → offset + width ≤ image.length :=
    fun h => Nat.le_trans h hsize
  rw [parseContent, ContentInside]
  split
  · next hkind =>
    simp only [safe_require_bind, safe_bind_pure, parseDirectory_safe hbody, hkind, ne_eq,
      not_true_eq_false, false_imp_iff, implies_true]
  · next hkind =>
    simp only [safe_load_bind]
    rw [and_iff_right (hin (by decide)), and_iff_right (hin (by decide)),
      safe_parseCollisionRoots_bind fun roots next => safe_bind_pure.trans safe_parseEntries_iff]
    exact ⟨fun h _ => h, fun h => h hkind⟩

/-- The parser reads inside the image, whatever its size, exactly when each
root and entry it gets to behind an accepted header is inside the image. -/
theorem hash_reads_inBounds_iff (request : ParseRequest) (image : Bytes) :
    InBounds image (parseIndexHashPageBody request image).1 ↔
      (ExtentKept image → FieldsKept request image →
        ContentInside image (headerOf request image)) := by
  show Safe image (parseIndexHashPageBody request) ↔ _
  rw [parseIndexHashPageBody, safe_bind, and_iff_right checkPageHeader_safe]
  simp only [checkPageHeader_accepts_iff, and_imp, forall_eq']
  refine forall_congr' fun hextent => ?_
  simp only [safe_imageSize_bind, safe_copy_bind, Nat.zero_add, Nat.le_refl, true_and]
  rw [safe_bind, and_iff_right (parseHeaderFields_safe hextent)]
  simp only [parseHeaderFields_accepts_iff, and_imp, forall_eq']
  refine forall_congr' fun _ => ?_
  rw [safe_bind_of_safe, safe_parseContent_iff hextent]
  intro parsed
  simp only [safe_require_bind, safe_check_bind, safe_pure, implies_true]

/-! ## Pages -/

/-- A bucket page without collision roots. -/
def bucketImage (entryCount : Nat) (entries : Bytes) (checksum : UInt64) : Bytes :=
  List.flatten [ kIndexHashMagic , littleBytes 4 kIndexHashPageBodyHeaderBytes
    , littleBytes 2 IndexHashPageKind.bucket.code
    , littleBytes 2 kIndexHashAlgorithmVersion2KeyedHash64.toNat
    , littleBytes 4 (kIndexHashPageBodyHeaderBytes + entries.length) , littleBytes 2 entryCount
    , littleBytes 2 0 , littleBytes 8 checksum.toNat , (engineUuid 1).bytes , littleBytes 8 7
    , littleBytes 8 1 , List.replicate 32 0 , littleBytes 8 1 , entries ]

def bucketPage (entryCount : Nat) (entries : Bytes) : Bytes :=
  bucketImage entryCount entries (computeIndexHashPageChecksum (bucketImage entryCount entries 0))

def bucketRequest : ParseRequest :=
  { pageNumber := 7
    expectedHashSeed := 1
    expectedHashAlgorithmVersion := 2
    testFixtureForceRouteHashCollision := false
    testFixtureForceFingerprintCollision := false
    expectedHashSeedHigh64 := 1 }

/-- An entry as it is stored, with its hash. -/
def storedEntry (key : Bytes) (row : UInt8) : Bytes :=
  List.flatten [ littleBytes 2 0 , littleBytes 2 0 , littleBytes 4 key.length
    , littleBytes 8 (fnv1a64 key).toNat
    , littleBytes 8 (computeIndexHashKeyHashWithSeedInternal 1 1 2 key false).toNat
    , (engineUuid row).bytes , (engineUuid row).bytes , List.replicate 16 0 , key ]

def twoEntryPage : Bytes := bucketPage 2 (storedEntry [1] 1 ++ storedEntry [2, 0] 2)

instance decidableEntriesInside : ∀ count i offset,
    Decidable (EntriesInside image header bodyBytes count i offset)
  | 0, _, _ => isTrue trivial
  | count + 1, _, _ =>
    have := decidableEntriesInside count
    inferInstanceAs (Decidable (_ → _ ∧ ((_ → _) → (_ → _) ∧ (_ → _ ∧
      (_ → _ → EntriesInside _ _ _ count _ _)))))

/-- Both entries are read, and inside the page. -/
theorem twoEntryPage_reads_inBounds :
    (∃ r, (parseIndexHashPageBody bucketRequest twoEntryPage).2 = .ok r ∧
        r.body.entries.length = 2) ∧
      InBounds twoEntryPage (parseIndexHashPageBody bucketRequest twoEntryPage).1 := by
  refine ⟨by decide +kernel, (hash_reads_inBounds_iff _ _).mpr fun _ _ _ => ?_⟩
  have hroots : field twoEntryPage kOffsetCollisionRootCount 2 = 0 := by decide +kernel
  rw [hroots]
  have hentries : EntriesInside twoEntryPage (headerOf bucketRequest twoEntryPage)
      (extentOf twoEntryPage).bodyBytes (field twoEntryPage kOffsetEntryCount 2) 0
      (extentOf twoEntryPage).headerBytes := by
    decide +kernel
  exact hentries

/-- A bucket page of one entry, whose key is one byte short of four gigabytes
by its header and has no bytes. -/
def wrappedBucketPage : Bytes :=
  bucketPage 1 (littleBytes 4 0 ++ (littleBytes 4 0xffffffff ++ List.replicate 64 0))

/-- The page ends at byte 176, where the key would start: 176 and the key
length make 175 in 32 bits. -/
theorem key_copied_past_end :
    wrappedBucketPage.length = 176 ∧ ⟨176, 0xffffffff⟩ ∈
        (parseIndexHashPageBody bucketRequest wrappedBucketPage).1 ∧
      ¬InBounds wrappedBucketPage (parseIndexHashPageBody bucketRequest wrappedBucketPage).1 := by
  decide +kernel

end ScratchBird.HashIndex
