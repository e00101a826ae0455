import ScratchBird.Lib.ImageReader
import ScratchBird.Storage.RowDataPage

/-!
# Pages of the hash index

The page format of `index_hash_page.cpp`: directory, bucket and overflow pages,
the hash of a key under each of the three algorithm versions, the checks a page
body passes, and the parser. The parser runs in the 32-bit arithmetic of the
source and keeps a record of its loads and copies; its result alone is what a
caller sees.

`DeriveSeedHigh64` hashes two numbers as they lie in memory, which is taken to
be least significant byte first.
-/

namespace ScratchBird.HashIndex

open Lib Lib.ImageReader
open Storage (isTypedEngineIdentity)

abbrev Bytes := List UInt8

inductive IndexHashPageKind where
  | directory | bucket | overflow | unknown
  deriving DecidableEq

def IndexHashPageKind.code : IndexHashPageKind → Nat
  | .directory => 1
  | .bucket => 2
  | .overflow => 3
  | .unknown => 0xffff

def IndexHashPageKind.ofCode (code : Nat) : IndexHashPageKind :=
  if code = 1 then .directory
  else if code = 2 then .bucket
  else if code = 3 then .overflow
  else .unknown

def kIndexHashAlgorithmVersion1LegacyFnv64 : UInt16 := 1
def kIndexHashAlgorithmVersion2KeyedHash64 : UInt16 := 2
def kIndexHashAlgorithmVersion3KeyedHash128Fingerprint : UInt16 := 3
def kIndexHashProductionDefaultAlgorithmVersion : UInt16 := 2
def kIndexHashNoEntryOrdinal : UInt16 := 0xffff

structure IndexHashEntry where
  keyHash : UInt64 := 0
  keyFingerprintLow64 : UInt64 := 0
  keyFingerprintHigh64 : UInt64 := 0
  fingerprintAlgorithmVersion : UInt16 := 0
  fingerprintPresent : Bool := false
  encodedKey : Bytes := []
  rowUuid : TypedUuid := {}
  versionUuid : TypedUuid := {}
  deleted : Bool := false
  nextCollisionPageNumber : UInt64 := 0
  nextCollisionOrdinal : UInt16 := kIndexHashNoEntryOrdinal

structure IndexHashCollisionRoot where
  keyHash : UInt64 := 0
  pageNumber : UInt64 := 0
  entryOrdinal : UInt16 := kIndexHashNoEntryOrdinal

structure IndexHashPageBody where
  indexUuid : TypedUuid := {}
  pageNumber : UInt64 := 0
  pageKind : IndexHashPageKind := .unknown
  hashSeed : UInt64 := 0
  hashSeedHigh64 : UInt64 := 0
  hashAlgorithmVersion : UInt16 := kIndexHashProductionDefaultAlgorithmVersion
  testFixtureForceRouteHashCollision : Bool := false
  testFixtureForceFingerprintCollision : Bool := false
  bucketIndex : UInt32 := 0
  bucketCount : UInt32 := 0
  overflowPageNumber : UInt64 := 0
  owningBucketPageNumber : UInt64 := 0
  freeSpaceBytes : UInt32 := 0
  directoryBucketPageNumbers : List UInt64 := []
  collisionRoots : List IndexHashCollisionRoot := []
  entries : List IndexHashEntry := []

/-- The outcome of building or parsing a page. -/
structure IndexHashPageBodyResult where
  body : IndexHashPageBody
  serialized : Bytes

def kIndexHashMagic : Bytes := [83, 66, 73, 72, 48, 48, 48, 49]
def kIndexHashPageBodyHeaderBytes : Nat := 104
def kIndexHashPageBodyHeaderBytesLegacy96 : Nat := 96

def kOffsetMagic : Nat := 0
def kOffsetHeaderBytes : Nat := 8
def kOffsetPageKind : Nat := 12
def kOffsetAlgorithmVersion : Nat := 14
def kOffsetBodyBytes : Nat := 16
def kOffsetEntryCount : Nat := 20
def kOffsetCollisionRootCount : Nat := 22
def kOffsetBodyChecksum : Nat := 24
def kOffsetIndexUuid : Nat := 32
def kOffsetPageNumber : Nat := 48
def kOffsetHashSeed : Nat := 56
def kOffsetBucketIndex : Nat := 64
def kOffsetBucketCount : Nat := 68
def kOffsetOverflowPageNumber : Nat := 72
def kOffsetOwningBucketPageNumber : Nat := 80
def kOffsetFreeSpaceBytes : Nat := 88
def kOffsetHashSeedHigh64 : Nat := 96

def kCollisionRootBytes : Nat := 24
def kRootOffsetHash : Nat := 0
def kRootOffsetPageNumber : Nat := 8
def kRootOffsetEntryOrdinal : Nat := 16

def kEntryHeaderBytesV1V2 : Nat := 72
def kEntryHeaderBytesV3 : Nat := 96
def kEntryOffsetFlags : Nat := 0
def kEntryOffsetNextOrdinal : Nat := 2
def kEntryOffsetKeyBytes : Nat := 4
def kEntryOffsetKeyChecksum : Nat := 8
def kEntryOffsetKeyHash : Nat := 16
def kEntryOffsetRowUuid : Nat := 24
def kEntryOffsetVersionUuid : Nat := 40
def kEntryOffsetNextPage : Nat := 56
def kEntryOffsetFingerprintLow64 : Nat := 64
def kEntryOffsetFingerprintHigh64 : Nat := 72
def kEntryOffsetFingerprintAlgorithm : Nat := 80

def kIndexHashForcedRouteHashFixtureValue : UInt64 := 0x484153485f464958
def kIndexHashForcedFingerprintLowFixtureValue : UInt64 := 0x46494e475f4c4f57
def kIndexHashForcedFingerprintHighFixtureValue : UInt64 := 0x46494e475f484947

def makeIndexHashPageDiagnostic (code key : String) (detail : String := "") :
    DiagnosticRecord :=
  { diagnosticCode := code
    messageKey := key
    detail
    sourceComponent := "storage.page.index_hash" }

def hashPageError {α : Type} (code key : String) (detail : String := "") :
    Except DiagnosticRecord α := .error (makeIndexHashPageDiagnostic code key detail)

/-! ## The hash of a key -/

def fnv1a64 (data : Bytes) (seed : UInt64 := 1469598103934665603) : UInt64 :=
  data.foldl (fun hash b => (hash ^^^ b.toUInt64) * 1099511628211) seed

def deriveSeedHigh64 (seedLow64 : UInt64) (hashAlgorithmVersion : UInt16) :
    UInt64 :=
  let derived := fnv1a64 (littleBytes 8 seedLow64.toNat ++ littleBytes 8
        (hashAlgorithmVersion.toUInt64 ^^^ (0x5342484153484b32 : UInt64)).toNat) 0x9ae16a3b2f90404f
  if derived = 0 then 0x632be59bd9b4e019 else derived

def rotl64 (value : UInt64) (bits : UInt64) : UInt64 := (value <<< bits) ||| (value >>> (64 - bits))

structure SipState where
  v0 : UInt64
  v1 : UInt64
  v2 : UInt64
  v3 : UInt64

def sipRound (s : SipState) : SipState :=
  let v0 := s.v0 + s.v1
  let v1 := rotl64 s.v1 13 ^^^ v0
  let v0 := rotl64 v0 32
  let v2 := s.v2 + s.v3
  let v3 := rotl64 s.v3 16 ^^^ v2
  let v0 := v0 + v3
  let v3 := rotl64 v3 21 ^^^ v0
  let v2 := v2 + v1
  let v1 := rotl64 v1 17 ^^^ v2
  let v2 := rotl64 v2 32
  ⟨v0, v1, v2, v3⟩

def SipState.absorb (s : SipState) (message : UInt64) : SipState :=
  let mixed := sipRound (sipRound { s with v3 := s.v3 ^^^ message })
  { mixed with v0 := mixed.v0 ^^^ message }

def sipHash24 (data : Bytes) (key0 key1 : UInt64) : UInt64 :=
  let start : SipState :=
    { v0 := (0x736f6d6570736575 : UInt64) ^^^ key0
      v1 := (0x646f72616e646f6d : UInt64) ^^^ key1
      v2 := (0x6c7967656e657261 : UInt64) ^^^ key0
      v3 := (0x7465646279746573 : UInt64) ^^^ key1 }
  let fullBlocks := data.length / 8
  let blocks := (List.range fullBlocks).map fun block =>
    UInt64.ofNat (littleValue (bytesAt data (block * 8) 8))
  let finalBlock := (UInt64.ofNat data.length <<< (56 : UInt64)) |||
    UInt64.ofNat (littleValue (data.drop (fullBlocks * 8)))
  let s := (blocks.foldl SipState.absorb start).absorb finalBlock
  let s := { s with v2 := s.v2 ^^^ (0xff : UInt64) }
  let s := sipRound (sipRound (sipRound (sipRound s)))
  let hash := s.v0 ^^^ s.v1 ^^^ s.v2 ^^^ s.v3
  if hash = 0 then 1 else hash

def keyedHash64 (hashSeedLow64 hashSeedHigh64 : UInt64)
    (hashAlgorithmVersion : UInt16) (domain : UInt64) (encodedKey : Bytes) :
    UInt64 :=
  let key0 := hashSeedLow64 ^^^ (0x9e3779b97f4a7c15 : UInt64) ^^^
    (hashAlgorithmVersion.toUInt64 <<< (48 : UInt64))
  let key1 := hashSeedHigh64 ^^^ (hashSeedLow64 <<< (17 : UInt64)) ^^^
    (hashSeedLow64 >>> (7 : UInt64)) ^^^ (0xd1b54a32d192ed03 : UInt64) ^^^ domain
  sipHash24 encodedKey key0 key1

def isSupportedHashAlgorithm (version : UInt16) : Bool :=
  version == kIndexHashAlgorithmVersion1LegacyFnv64 ||
    version == kIndexHashAlgorithmVersion2KeyedHash64 ||
    version == kIndexHashAlgorithmVersion3KeyedHash128Fingerprint

def hashAlgorithmRequiresFingerprint (version : UInt16) : Bool :=
  version == kIndexHashAlgorithmVersion3KeyedHash128Fingerprint

def entryHeaderBytesForAlgorithm (version : UInt16) : Nat :=
  if hashAlgorithmRequiresFingerprint version then kEntryHeaderBytesV3
  else kEntryHeaderBytesV1V2

def computeIndexHashKeyHashWithSeedInternal
    (hashSeedLow64 hashSeedHigh64 : UInt64) (hashAlgorithmVersion : UInt16)
    (encodedKey : Bytes) (forceRouteHashCollision : Bool) : UInt64 :=
  if !isSupportedHashAlgorithm hashAlgorithmVersion then 0
  else if forceRouteHashCollision then kIndexHashForcedRouteHashFixtureValue
  else if hashAlgorithmVersion = kIndexHashAlgorithmVersion1LegacyFnv64 then
    let basis := ((1469598103934665603 : UInt64) ^^^ hashSeedLow64 ^^^
      hashAlgorithmVersion.toUInt64) * 1099511628211
    let raw := fnv1a64 encodedKey basis
    if raw = 0 then 1 else raw
  else
    keyedHash64 hashSeedLow64 hashSeedHigh64 hashAlgorithmVersion 0x484153485f524f55 encodedKey

def computeIndexHashEntryFingerprintsWithSeedInternal (entry : IndexHashEntry)
    (hashSeedLow64 hashSeedHigh64 : UInt64) (hashAlgorithmVersion : UInt16)
    (forceRouteHashCollision forceFingerprintCollision : Bool) :
    IndexHashEntry :=
  let keyHash := computeIndexHashKeyHashWithSeedInternal hashSeedLow64
    hashSeedHigh64 hashAlgorithmVersion entry.encodedKey forceRouteHashCollision
  if hashAlgorithmRequiresFingerprint hashAlgorithmVersion then
    { entry with
      keyHash
      keyFingerprintLow64 :=
        if forceFingerprintCollision then
          kIndexHashForcedFingerprintLowFixtureValue
        else
          keyedHash64 hashSeedLow64 hashSeedHigh64 hashAlgorithmVersion
            0x46494e4745524c4f entry.encodedKey
      keyFingerprintHigh64 :=
        if forceFingerprintCollision then
          kIndexHashForcedFingerprintHighFixtureValue
        else
          keyedHash64 hashSeedLow64 hashSeedHigh64 hashAlgorithmVersion
            0x46494e4745524849 entry.encodedKey
      fingerprintAlgorithmVersion := hashAlgorithmVersion
      fingerprintPresent := true }
  else
    { entry with
      keyHash
      keyFingerprintLow64 := 0
      keyFingerprintHigh64 := 0
      fingerprintAlgorithmVersion := 0
      fingerprintPresent := false }

/-! ## Checks -/

def isKnownPageKind (kind : IndexHashPageKind) : Bool :=
  kind == .directory || kind == .bucket || kind == .overflow

def validateFingerprint (entry : IndexHashEntry) (body : IndexHashPageBody)
    (ordinal : Nat) : Except DiagnosticRecord Unit :=
  let expected := computeIndexHashEntryFingerprintsWithSeedInternal
    { encodedKey := entry.encodedKey
      rowUuid := entry.rowUuid
      versionUuid := entry.versionUuid
      deleted := entry.deleted
      nextCollisionPageNumber := entry.nextCollisionPageNumber
      nextCollisionOrdinal := entry.nextCollisionOrdinal }
    body.hashSeed body.hashSeedHigh64 body.hashAlgorithmVersion
    body.testFixtureForceRouteHashCollision
    body.testFixtureForceFingerprintCollision
  if hashAlgorithmRequiresFingerprint body.hashAlgorithmVersion then
    if entry.fingerprintAlgorithmVersion ≠ body.hashAlgorithmVersion then
      hashPageError "SB-INDEX-HASH-FINGERPRINT-ALGORITHM-MISMATCH"
        "storage.index_hash_page.fingerprint_algorithm_mismatch" (toString ordinal)
    else if entry.keyFingerprintLow64 ≠ expected.keyFingerprintLow64 ∨
        entry.keyFingerprintHigh64 ≠ expected.keyFingerprintHigh64 then
      hashPageError "SB-INDEX-HASH-FINGERPRINT-MISMATCH"
        "storage.index_hash_page.fingerprint_mismatch" (toString ordinal)
    else .ok ()
  else if entry.fingerprintAlgorithmVersion ≠ 0 ∨
      entry.keyFingerprintLow64 ≠ 0 ∨ entry.keyFingerprintHigh64 ≠ 0 then
    hashPageError "SB-INDEX-HASH-FINGERPRINT-UNEXPECTED"
      "storage.index_hash_page.fingerprint_unexpected" (toString ordinal)
  else .ok ()

/-- The seeds, the algorithm and the test switches are those of the page the
entry stands on. -/
def validateEntryBasics (entry : IndexHashEntry) (body : IndexHashPageBody)
    (ordinal : Nat) : Except DiagnosticRecord Unit :=
  if entry.encodedKey = [] then
    hashPageError "SB-INDEX-HASH-KEY-MISSING"
      "storage.index_hash_page.key_missing" (toString ordinal)
  else if entry.keyHash ≠ computeIndexHashKeyHashWithSeedInternal body.hashSeed
      body.hashSeedHigh64 body.hashAlgorithmVersion entry.encodedKey
      body.testFixtureForceRouteHashCollision then
    hashPageError "SB-INDEX-HASH-ENTRY-HASH-MISMATCH"
      "storage.index_hash_page.entry_hash_mismatch" (toString ordinal)
  else if entry.fingerprintPresent ≠ hashAlgorithmRequiresFingerprint body.hashAlgorithmVersion then
    hashPageError "SB-INDEX-HASH-FINGERPRINT-PRESENCE-MISMATCH"
      "storage.index_hash_page.fingerprint_presence_mismatch" (toString ordinal)
  else do
    validateFingerprint entry body ordinal
    if !isTypedEngineIdentity entry.rowUuid .row ||
        !isTypedEngineIdentity entry.versionUuid .row then
      hashPageError "SB-INDEX-HASH-LOCATOR-UUID-INVALID"
        "storage.index_hash_page.locator_uuid_invalid" (toString ordinal)
    else .ok ()

def validateEntries (body : IndexHashPageBody) :
    Nat → List IndexHashEntry → Except DiagnosticRecord Unit
  | _, [] => .ok ()
  | i, entry :: rest => do
      validateEntryBasics entry body i
      validateEntries body (i + 1) rest

/-- Page numbers of a directory: none is zero, none stands twice. -/
def validateBucketPages (seen : List UInt64) : List UInt64 → Except DiagnosticRecord Unit
  | [] => .ok ()
  | bucketPageNumber :: rest =>
    if bucketPageNumber = 0 ∨ bucketPageNumber ∈ seen then
      hashPageError "SB-INDEX-HASH-DIRECTORY-BUCKETS-INVALID"
        "storage.index_hash_page.directory_buckets_invalid" (toString bucketPageNumber.toNat)
    else validateBucketPages (bucketPageNumber :: seen) rest

def validatePageForBuild (body : IndexHashPageBody) : Except DiagnosticRecord Unit :=
  if !isKnownPageKind body.pageKind then
    hashPageError "SB-INDEX-HASH-PAGE-KIND-INVALID"
      "storage.index_hash_page.kind_invalid" (toString body.pageKind.code)
  else if !isSupportedHashAlgorithm body.hashAlgorithmVersion then
    hashPageError "SB-INDEX-HASH-ALGORITHM-UNSUPPORTED"
      "storage.index_hash_page.algorithm_unsupported" (toString body.hashAlgorithmVersion.toNat)
  else if body.hashAlgorithmVersion ≠ kIndexHashAlgorithmVersion1LegacyFnv64 ∧
      body.hashSeedHigh64 = 0 then
    hashPageError "SB-INDEX-HASH-SEED-MISSING" "storage.index_hash_page.seed_missing"
      "keyed_hash_requires_128_bit_seed_material"
  else if body.pageNumber = 0 then
    hashPageError "SB-INDEX-HASH-PAGE-NUMBER-REQUIRED"
      "storage.index_hash_page.page_number_required"
  else if !isTypedEngineIdentity body.indexUuid .object then
    hashPageError "SB-INDEX-HASH-INDEX-UUID-MUST-BE-V7"
      "storage.index_hash_page.index_uuid_must_be_v7"
  else if body.pageKind = .directory then
    if body.directoryBucketPageNumbers = [] ∨
        body.bucketCount.toNat ≠ body.directoryBucketPageNumbers.length then
      hashPageError "SB-INDEX-HASH-DIRECTORY-BUCKETS-INVALID"
        "storage.index_hash_page.directory_buckets_invalid" (toString body.bucketCount.toNat)
    else validateBucketPages [] body.directoryBucketPageNumbers
  else if body.pageKind = .bucket ∧ body.owningBucketPageNumber ≠ 0 then
    hashPageError "SB-INDEX-HASH-BUCKET-OWNER-INVALID"
      "storage.index_hash_page.bucket_owner_invalid" (toString body.pageNumber.toNat)
  else if body.pageKind = .overflow ∧ body.owningBucketPageNumber = 0 then
    hashPageError "SB-INDEX-HASH-OVERFLOW-OWNER-MISSING"
      "storage.index_hash_page.overflow_owner_missing" (toString body.pageNumber.toNat)
  else if body.pageKind = .overflow ∧ body.collisionRoots ≠ [] then
    hashPageError "SB-INDEX-HASH-OVERFLOW-ROOTS-INVALID"
      "storage.index_hash_page.overflow_roots_invalid" (toString body.pageNumber.toNat)
  else validateEntries body 0 body.entries

/-! ## Reading an image -/

/-- The checksum is taken with its own field set to zero. -/
def computeIndexHashPageChecksum (body : Bytes) : UInt64 :=
  if kOffsetBodyChecksum + 8 ≤ body.length then
    fnv1a64 (body.take kOffsetBodyChecksum ++
      (List.replicate 8 0 ++ body.drop (kOffsetBodyChecksum + 8)))
  else fnv1a64 body

def storedUuid (bytes : Bytes) : Uuid :=
  if h : bytes.length = 16 then ⟨bytes, h⟩ else Uuid.nil

/-- The size of the header and of the body, once both have been checked. -/
structure PageExtent where
  headerBytes : Nat
  bodyBytes : Nat

def checkPageHeader (pageNumber : UInt64) : ImageReader DiagnosticRecord PageExtent := do
  let size ← imageSize
  require (kIndexHashPageBodyHeaderBytesLegacy96 ≤ size)
    (makeIndexHashPageDiagnostic "SB-INDEX-HASH-PAGE-BODY-SHORT"
      "storage.index_hash_page.body_short" (toString pageNumber.toNat))
  let magic ← copy kOffsetMagic 8
  require (magic = kIndexHashMagic) (makeIndexHashPageDiagnostic "SB-INDEX-HASH-PAGE-MAGIC-INVALID"
      "storage.index_hash_page.magic_invalid" (toString pageNumber.toNat))
  let headerBytes ← load kOffsetHeaderBytes 4
  require (headerBytes = kIndexHashPageBodyHeaderBytes ∨
      headerBytes = kIndexHashPageBodyHeaderBytesLegacy96)
    (makeIndexHashPageDiagnostic "SB-INDEX-HASH-PAGE-HEADER-SIZE-INVALID"
      "storage.index_hash_page.header_size_invalid" (toString pageNumber.toNat))
  let checksum ← load kOffsetBodyChecksum 8
  let serialized ← copy 0 size
  require (UInt64.ofNat checksum = computeIndexHashPageChecksum serialized)
    (makeIndexHashPageDiagnostic "SB-INDEX-HASH-PAGE-CHECKSUM-MISMATCH"
      "storage.index_hash_page.checksum_mismatch" (toString pageNumber.toNat))
  let bodyBytes ← load kOffsetBodyBytes 4
  require (bodyBytes ≤ size ∧ headerBytes ≤ bodyBytes)
    (makeIndexHashPageDiagnostic "SB-INDEX-HASH-PAGE-BODY-SIZE-INVALID"
      "storage.index_hash_page.body_size_invalid" (toString pageNumber.toNat))
  pure ⟨headerBytes, bodyBytes⟩

/-- A header without room for the high half of the seed derives it. -/
def loadSeedHigh64 (headerBytes : Nat) (hashSeed : UInt64)
    (hashAlgorithmVersion : UInt16) : ImageReader DiagnosticRecord UInt64 :=
  if kIndexHashPageBodyHeaderBytes ≤ headerBytes then do
    let high ← load kOffsetHashSeedHigh64 8
    pure (UInt64.ofNat high)
  else pure (deriveSeedHigh64 hashSeed hashAlgorithmVersion)

/-- What the caller of the parser asks for; zero asks for nothing. -/
structure ParseRequest where
  pageNumber : UInt64
  expectedHashSeed : UInt64
  expectedHashAlgorithmVersion : UInt16
  testFixtureForceRouteHashCollision : Bool
  testFixtureForceFingerprintCollision : Bool
  expectedHashSeedHigh64 : UInt64

/-- The fields of the header; what stands behind it is read separately. -/
def parseHeaderFields (request : ParseRequest) (extent : PageExtent) :
    ImageReader DiagnosticRecord IndexHashPageBody := do
  let kind ← load kOffsetPageKind 2
  require (isKnownPageKind (.ofCode kind))
    (makeIndexHashPageDiagnostic "SB-INDEX-HASH-PAGE-KIND-INVALID"
      "storage.index_hash_page.kind_invalid" (toString request.pageNumber.toNat))
  let version ← load kOffsetAlgorithmVersion 2
  let hashAlgorithmVersion := UInt16.ofNat version
  require (isSupportedHashAlgorithm hashAlgorithmVersion)
    (makeIndexHashPageDiagnostic "SB-INDEX-HASH-ALGORITHM-UNSUPPORTED"
      "storage.index_hash_page.algorithm_unsupported" (toString hashAlgorithmVersion.toNat))
  let seed ← load kOffsetHashSeed 8
  let hashSeed := UInt64.ofNat seed
  let hashSeedHigh64 ←
    loadSeedHigh64 extent.headerBytes hashSeed hashAlgorithmVersion
  require (request.expectedHashAlgorithmVersion = 0 ∨
      hashAlgorithmVersion = request.expectedHashAlgorithmVersion)
    (makeIndexHashPageDiagnostic "SB-INDEX-HASH-ALGORITHM-VERSION-MISMATCH"
      "storage.index_hash_page.algorithm_version_mismatch" (toString request.pageNumber.toNat))
  require (request.expectedHashSeed = 0 ∨ hashSeed = request.expectedHashSeed)
    (makeIndexHashPageDiagnostic "SB-INDEX-HASH-SEED-MISMATCH"
      "storage.index_hash_page.seed_mismatch" (toString request.pageNumber.toNat))
  require (request.expectedHashSeedHigh64 = 0 ∨ hashSeedHigh64 = request.expectedHashSeedHigh64)
    (makeIndexHashPageDiagnostic "SB-INDEX-HASH-SEED-MISMATCH"
      "storage.index_hash_page.seed_mismatch" (toString request.pageNumber.toNat))
  let uuid ← copy kOffsetIndexUuid 16
  let indexUuid : TypedUuid := ⟨.object, storedUuid uuid⟩
  require (isTypedEngineIdentity indexUuid .object)
    (makeIndexHashPageDiagnostic "SB-INDEX-HASH-INDEX-UUID-MUST-BE-V7"
      "storage.index_hash_page.index_uuid_must_be_v7" (toString request.pageNumber.toNat))
  let stored ← load kOffsetPageNumber 8
  let number :=
    if UInt64.ofNat stored = 0 then request.pageNumber else UInt64.ofNat stored
  require (number = request.pageNumber)
    (makeIndexHashPageDiagnostic "SB-INDEX-HASH-PAGE-NUMBER-MISMATCH"
      "storage.index_hash_page.page_number_mismatch" (toString request.pageNumber.toNat))
  let bucketIndex ← load kOffsetBucketIndex 4
  let bucketCount ← load kOffsetBucketCount 4
  let overflowPageNumber ← load kOffsetOverflowPageNumber 8
  let owningBucketPageNumber ← load kOffsetOwningBucketPageNumber 8
  let freeSpaceBytes ← load kOffsetFreeSpaceBytes 4
  let size ← imageSize
  require (freeSpaceBytes = size - extent.bodyBytes)
    (makeIndexHashPageDiagnostic "SB-INDEX-HASH-PAGE-FREE-SPACE-INVALID"
      "storage.index_hash_page.free_space_invalid" (toString request.pageNumber.toNat))
  pure
    { indexUuid
      pageNumber := number
      pageKind := .ofCode kind
      hashSeed
      hashSeedHigh64
      hashAlgorithmVersion
      testFixtureForceRouteHashCollision := request.testFixtureForceRouteHashCollision
      testFixtureForceFingerprintCollision := request.testFixtureForceFingerprintCollision
      bucketIndex := UInt32.ofNat bucketIndex
      bucketCount := UInt32.ofNat bucketCount
      overflowPageNumber := UInt64.ofNat overflowPageNumber
      owningBucketPageNumber := UInt64.ofNat owningBucketPageNumber
      freeSpaceBytes := UInt32.ofNat freeSpaceBytes }

/-- The bucket pages of a directory. The test adds a `size_t` to the offset and
does not wrap. -/
def parseDirectory (bodyBytes : Nat) :
    Nat → Nat → Nat → ImageReader DiagnosticRecord (List UInt64 × Nat)
  | 0, _, offset => pure ([], offset)
  | count + 1, i, offset => do
      require (offset + 8 ≤ bodyBytes) (makeIndexHashPageDiagnostic "SB-INDEX-HASH-DIRECTORY-SHORT"
          "storage.index_hash_page.directory_short" (toString i))
      let pageNumber ← load offset 8
      let (rest, last) ←
        parseDirectory bodyBytes count (i + 1) (sum32 offset 8)
      pure (UInt64.ofNat pageNumber :: rest, last)

def parseCollisionRoots (bodyBytes : Nat) :
    Nat → Nat → Nat → ImageReader DiagnosticRecord (List IndexHashCollisionRoot × Nat)
  | 0, _, offset => pure ([], offset)
  | count + 1, i, offset => do
      requireFits offset kCollisionRootBytes bodyBytes
        (makeIndexHashPageDiagnostic "SB-INDEX-HASH-COLLISION-ROOT-SHORT"
          "storage.index_hash_page.collision_root_short" (toString i))
      let keyHash ← load (offset + kRootOffsetHash) 8
      let pageNumber ← load (offset + kRootOffsetPageNumber) 8
      let entryOrdinal ← load (offset + kRootOffsetEntryOrdinal) 2
      let (rest, last) ← parseCollisionRoots bodyBytes count (i + 1)
        (sum32 offset kCollisionRootBytes)
      pure
        ( { keyHash := UInt64.ofNat keyHash
            pageNumber := UInt64.ofNat pageNumber
            entryOrdinal := UInt16.ofNat entryOrdinal } :: rest
        , last )

/-- A stored locator: absent when its bytes are all zero. -/
def storedLocator (bytes : Bytes) : TypedUuid :=
  if (storedUuid bytes).isNil then {} else ⟨.row, storedUuid bytes⟩

/-- The fingerprint of an entry, where its flag says there is one. -/
def loadFingerprint (present : Bool) (entryHeaderBytes i offset : Nat) :
    ImageReader DiagnosticRecord (UInt64 × UInt64 × UInt16) :=
  if present then do
    require (kEntryHeaderBytesV3 ≤ entryHeaderBytes)
      (makeIndexHashPageDiagnostic "SB-INDEX-HASH-FINGERPRINT-UNEXPECTED"
        "storage.index_hash_page.fingerprint_unexpected" (toString i))
    let low ← load (offset + kEntryOffsetFingerprintLow64) 8
    let high ← load (offset + kEntryOffsetFingerprintHigh64) 8
    let version ← load (offset + kEntryOffsetFingerprintAlgorithm) 2
    pure (UInt64.ofNat low, UInt64.ofNat high, UInt16.ofNat version)
  else pure (0, 0, 0)

/-- One entry with its key, and the offset behind it. -/
def parseEntry (bodyBytes entryHeaderBytes i offset : Nat) :
    ImageReader DiagnosticRecord (IndexHashEntry × Nat) := do
  requireFits offset entryHeaderBytes bodyBytes
    (makeIndexHashPageDiagnostic "SB-INDEX-HASH-ENTRY-SHORT"
      "storage.index_hash_page.entry_short" (toString i))
  let stored ← load (offset + kEntryOffsetFlags) 2
  let flags := UInt16.ofNat stored
  let nextOrdinal ← load (offset + kEntryOffsetNextOrdinal) 2
  let keyBytes ← load (offset + kEntryOffsetKeyBytes) 4
  let keyChecksum ← load (offset + kEntryOffsetKeyChecksum) 8
  let keyHash ← load (offset + kEntryOffsetKeyHash) 8
  let row ← copy (offset + kEntryOffsetRowUuid) 16
  let version ← copy (offset + kEntryOffsetVersionUuid) 16
  let nextPage ← load (offset + kEntryOffsetNextPage) 8
  let fingerprint ←
    loadFingerprint (flags &&& 2 != 0) entryHeaderBytes i offset
  let key := sum32 offset entryHeaderBytes
  requireFits key keyBytes bodyBytes (makeIndexHashPageDiagnostic "SB-INDEX-HASH-KEY-SHORT"
      "storage.index_hash_page.key_short" (toString i))
  let encodedKey ← copy key keyBytes
  require (UInt64.ofNat keyChecksum = fnv1a64 encodedKey)
    (makeIndexHashPageDiagnostic "SB-INDEX-HASH-KEY-CHECKSUM-MISMATCH"
      "storage.index_hash_page.key_checksum_mismatch" (toString i))
  pure
    ( { keyHash := UInt64.ofNat keyHash
        keyFingerprintLow64 := fingerprint.1
        keyFingerprintHigh64 := fingerprint.2.1
        fingerprintAlgorithmVersion := fingerprint.2.2
        fingerprintPresent := flags &&& 2 != 0
        encodedKey
        rowUuid := storedLocator row
        versionUuid := storedLocator version
        deleted := flags &&& 1 != 0
        nextCollisionPageNumber := UInt64.ofNat nextPage
        nextCollisionOrdinal := UInt16.ofNat nextOrdinal }
    , sum32 key keyBytes )

def parseEntries (header : IndexHashPageBody) (bodyBytes : Nat) :
    Nat → Nat → Nat → ImageReader DiagnosticRecord (List IndexHashEntry × Nat)
  | 0, _, offset => pure ([], offset)
  | count + 1, i, offset => do
      let (entry, next) ← parseEntry bodyBytes
        (entryHeaderBytesForAlgorithm header.hashAlgorithmVersion) i offset
      check (validateEntryBasics entry header i)
      let (rest, last) ← parseEntries header bodyBytes count (i + 1) next
      pure (entry :: rest, last)

/-- What stands behind the header, by the kind of the page. -/
def parseContent (request : ParseRequest) (extent : PageExtent) (header : IndexHashPageBody) :
    ImageReader DiagnosticRecord (IndexHashPageBody × Nat) :=
  if header.pageKind = .directory then do
    require (header.bucketCount ≠ 0) (makeIndexHashPageDiagnostic "SB-INDEX-HASH-DIRECTORY-EMPTY"
        "storage.index_hash_page.directory_empty" (toString request.pageNumber.toNat))
    let (pages, last) ← parseDirectory extent.bodyBytes
      header.bucketCount.toNat 0 extent.headerBytes
    pure ({ header with directoryBucketPageNumbers := pages }, last)
  else do
    let rootCount ← load kOffsetCollisionRootCount 2
    let entryCount ← load kOffsetEntryCount 2
    let (roots, next) ← parseCollisionRoots extent.bodyBytes rootCount 0 extent.headerBytes
    let (entries, last) ← parseEntries header extent.bodyBytes entryCount 0 next
    pure ({ header with collisionRoots := roots, entries := entries }, last)

def parseIndexHashPageBody (request : ParseRequest) :
    ImageReader DiagnosticRecord IndexHashPageBodyResult := do
  let extent ← checkPageHeader request.pageNumber
  let size ← imageSize
  let serialized ← copy 0 size
  let header ← parseHeaderFields request extent
  let (body, last) ← parseContent request extent header
  require (last = extent.bodyBytes) (makeIndexHashPageDiagnostic "SB-INDEX-HASH-PAGE-TRAILING-BYTES"
      "storage.index_hash_page.trailing_bytes" (toString request.pageNumber.toNat))
  check (validatePageForBuild body)
  pure { body := body, serialized := serialized }

end ScratchBird.HashIndex
