import ScratchBird.Platform
import ScratchBird.Lib.OrderedCode

/-!
# Index key encoding

`index_key_encoding.cpp`. A key is an envelope mark followed by its components:
a rank that places nulls, the identity of the component's descriptor, and for a
value that is not null its payload, escaped, closed and, for a descending
component, complemented. Keys are compared as unsigned bytes.

The bounds of a prefix are built by a second encoder, which closes no payload,
not even that of a component another one follows.

`std::tolower` is taken in the default locale, where it maps the ASCII capitals.
-/

namespace ScratchBird.Index

open Lib

abbrev Bytes := List UInt8

inductive IndexKeyComponentKind where
  | scalar | domain | collationKey | expression | vectorElement | spatialToken
  | textToken | referenceRaw | uuidV7
  deriving DecidableEq

def IndexKeyComponentKind.code : IndexKeyComponentKind → Nat
  | .scalar => 1
  | .domain => 2
  | .collationKey => 3
  | .expression => 4
  | .vectorElement => 5
  | .spatialToken => 6
  | .textToken => 7
  | .referenceRaw => 8
  | .uuidV7 => 9

inductive IndexKeySortDirection where
  | ascending | descending
  deriving DecidableEq

inductive IndexKeyNullPlacement where
  | nullsFirst | nullsLast | referenceProfileDefault
  deriving DecidableEq

structure IndexKeySemanticProfile where
  profileId : String := "sb_native_default"
  bytewiseStable : Bool := true
  requiresRecheck : Bool := false

structure IndexKeyEncodingComponent where
  kind : IndexKeyComponentKind := .scalar
  ordinal : Nat := 0
  typeDescriptorUuid : TypedUuid := {}
  typeDescriptorEpoch : Nat := 1
  collationUuid : TypedUuid := {}
  sortDirection : IndexKeySortDirection := .ascending
  nullPlacement : IndexKeyNullPlacement := .nullsLast
  isNull : Bool := false
  caseFolded : Bool := false
  lossy : Bool := false
  uuidV7Value : TypedUuid := {}
  payload : Bytes := []

structure IndexKeyEncodingResult where
  encoded : Bytes := []
  lossy : Bool := false
  requiresRecheck : Bool := false
  uuidV7Specialized : Bool := false
  evidence : List String := []

def makeIndexKeyEncodingDiagnostic (code key : String) (detail : String := "") :
    DiagnosticRecord :=
  { diagnosticCode := code
    messageKey := key
    detail
    sourceComponent := "core.index.key_encoding" }

/-! ## Components -/

def kNullRankFirst : UInt8 := 0x00
def kNonNullRank : UInt8 := 0x7f
def kNullRankLast : UInt8 := 0xff

def nullRankFor (c : IndexKeyEncodingComponent) : UInt8 :=
  if !c.isNull then kNonNullRank
  else
    match c.nullPlacement with
    | .nullsFirst => kNullRankFirst
    | .nullsLast => kNullRankLast
    | .referenceProfileDefault => kNullRankLast

def toLower (b : UInt8) : UInt8 := if 0x41 ≤ b ∧ b ≤ 0x5a then b + 0x20 else b

def payloadForOrder (c : IndexKeyEncodingComponent) : Bytes :=
  if c.caseFolded then c.payload.map toLower else c.payload

def escapedPayload (payload : Bytes) : Bytes := terminated 0x00 0xff payload

def complementIfDescending (c : IndexKeyEncodingComponent) (bytes : Bytes) :
    Bytes :=
  if c.sortDirection = .descending then bytes.map (~~~ ·) else bytes

def comparablePayloadForSort (c : IndexKeyEncodingComponent) : Bytes :=
  complementIfDescending c (escapedPayload (payloadForOrder c))

/-- The component whose payload is encoded: a version 7 UUID component carries
its value outside the payload. -/
def payloadComponent (c : IndexKeyEncodingComponent) :
    IndexKeyEncodingComponent :=
  if c.kind = .uuidV7 then { c with payload := c.uuidV7Value.value.bytes } else c

/-- The bytes of an unsigned integer, most significant first. -/
def bigEndian (width value : Nat) : Bytes :=
  (List.range width).reverse.map fun i => UInt8.ofNat ((value >>> (8 * i)) &&& 0xff)

def uuidKindCode : UuidKind → UInt8
  | .database => 0
  | .cluster => 1
  | .filespace => 2
  | .schema => 3
  | .object => 4
  | .row => 5
  | .page => 6
  | .transaction => 7
  | .session => 8
  | .principal => 9
  | .unknown => 10

def typedUuidBytes (u : TypedUuid) : Bytes := uuidKindCode u.kind :: u.value.bytes

def componentDescriptorIdentity (c : IndexKeyEncodingComponent) : Bytes :=
  bigEndian 4 c.kind.code ++ typedUuidBytes c.typeDescriptorUuid ++
    bigEndian 8 c.typeDescriptorEpoch ++
    if c.collationUuid.valid then 1 :: typedUuidBytes c.collationUuid else [0]

/-! ## Encoding -/

def kOrderPreservingMagic : Bytes := [0x53, 0x42, 0x4b, 0x4f]
def kUnsafeLegacyMagic : Bytes := [0x53, 0x42, 0x4b, 0x31]

def extractUuidV7TimePrefix (u : Uuid) : Except String Nat :=
  if u.isNil then .error "nil_uuid"
  else if !isValidUuidVariant u then .error "invalid_variant"
  else if uuidVersion u != 7 then .error "not_uuid_v7"
  else
    .ok ((u.bytes.take 6).foldl (fun millis b => (millis <<< 8) ||| b.toNat) 0)

/-- The checks every component passes, in the encoder and in the builder of
prefix bounds; the two differ in the names they report under. -/
def componentRefusal (code key : String) (c : IndexKeyEncodingComponent) :
    Option DiagnosticRecord :=
  if c.kind = .referenceRaw then
    some (makeIndexKeyEncodingDiagnostic (code ++ "-REFERENCE-RAW-REFUSED")
      (key ++ ".reference_raw_refused") (toString c.ordinal))
  else if c.nullPlacement = .referenceProfileDefault then
    some (makeIndexKeyEncodingDiagnostic (code ++ "-REFERENCE-NULLS-REFUSED")
      (key ++ ".reference_null_placement_refused") (toString c.ordinal))
  else if ¬c.typeDescriptorUuid.valid then
    some (makeIndexKeyEncodingDiagnostic (code ++ "-TYPE-UUID-MISSING")
      (key ++ ".type_uuid_missing") (toString c.ordinal))
  else if c.typeDescriptorEpoch = 0 then
    some (makeIndexKeyEncodingDiagnostic (code ++ "-TYPE-EPOCH-MISSING")
      (key ++ ".type_epoch_missing") (toString c.ordinal))
  else none

/-- The time of a version 7 UUID component that is not null; `none` for every
other component. -/
def componentTime (code key : String) (c : IndexKeyEncodingComponent) :
    Except DiagnosticRecord (Option Nat) :=
  if c.kind = .uuidV7 ∧ ¬c.isNull then
    if ¬c.uuidV7Value.valid then
      .error (makeIndexKeyEncodingDiagnostic (code ++ "-UUIDV7-MISSING")
        (key ++ ".uuidv7_missing") (toString c.ordinal))
    else
      match extractUuidV7TimePrefix c.uuidV7Value.value with
      | .error reason =>
        .error (makeIndexKeyEncodingDiagnostic (code ++ "-UUIDV7-REFUSED")
          (key ++ ".uuidv7_refused") reason)
      | .ok millis => .ok (some millis)
  else .ok none

def encodedComponent (c : IndexKeyEncodingComponent) : Bytes :=
  nullRankFor c :: (componentDescriptorIdentity c ++
    if c.isNull then [] else comparablePayloadForSort (payloadComponent c))

def encodeComponent (result : IndexKeyEncodingResult) (c : IndexKeyEncodingComponent) :
    Except DiagnosticRecord IndexKeyEncodingResult :=
  match componentRefusal "SB-INDEX-KEY-ENCODING" "index.key_encoding" c with
  | some diagnostic => .error diagnostic
  | none => do
      let time ← componentTime "SB-INDEX-KEY-ENCODING" "index.key_encoding" c
      let timeEvidence :=
        match time with
        | none => []
        | some millis =>
          ["uuidv7_index_key_component=true", "uuidv7_time_prefix_millis=" ++ toString millis,
           "uuid_ordering_finality_authority=false", "visibility_authority=false"]
      return {
        encoded := result.encoded ++ encodedComponent c
        lossy := result.lossy || c.lossy
        requiresRecheck := result.requiresRecheck || c.lossy
        uuidV7Specialized := result.uuidV7Specialized || time.isSome
        evidence := result.evidence ++ timeEvidence ++ ["index_key_descriptor_identity_bound=true",
           "index_key_descriptor_epoch=" ++ toString c.typeDescriptorEpoch] }

def encodeIndexKey (components : List IndexKeyEncodingComponent)
    (profile : IndexKeySemanticProfile) : Except DiagnosticRecord IndexKeyEncodingResult :=
  if components.isEmpty then
    .error (makeIndexKeyEncodingDiagnostic "SB-INDEX-KEY-ENCODING-EMPTY" "index.key_encoding.empty")
  else if ¬profile.bytewiseStable then
    .error (makeIndexKeyEncodingDiagnostic "SB-INDEX-KEY-ENCODING-UNSTABLE-PROFILE"
      "index.key_encoding.unstable_profile_refused" profile.profileId)
  else
    components.foldlM encodeComponent
      { encoded := kOrderPreservingMagic, requiresRecheck := profile.requiresRecheck }

/-! ## Prefix bounds -/

structure IndexKeyPrefixBoundsResult where
  matcherPrefix : Bytes := []
  lowerBound : Bytes := []
  upperBound : Bytes := []
  upperBoundUnbounded : Bool := false
  lossy : Bool := false
  requiresRecheck : Bool := false
  evidence : List String := []

def escapedPayloadPrefix (payload : Bytes) : Bytes := escape 0x00 0xff payload

def comparablePayloadPrefixForSort (c : IndexKeyEncodingComponent) : Bytes :=
  complementIfDescending c (escapedPayloadPrefix (payloadForOrder c))

/-- The bytes before `kOrderPreservingMagic.size()` are never advanced. -/
def advanceLexicographicUpperPrefix (bytes : Bytes) : Option Bytes :=
  (advance 0xff (· + 1) (bytes.drop kOrderPreservingMagic.length)).map
    (bytes.take kOrderPreservingMagic.length ++ ·)

def prefixComponent (c : IndexKeyEncodingComponent) : Bytes :=
  nullRankFor c :: (componentDescriptorIdentity c ++
    if c.isNull then [] else comparablePayloadPrefixForSort (payloadComponent c))

def appendPrefixComponent (result : IndexKeyPrefixBoundsResult) (c : IndexKeyEncodingComponent) :
    Except DiagnosticRecord IndexKeyPrefixBoundsResult :=
  match componentRefusal "SB-INDEX-KEY-PREFIX" "index.key_prefix" c with
  | some diagnostic => .error diagnostic
  | none => do
      let time ← componentTime "SB-INDEX-KEY-PREFIX" "index.key_prefix" c
      let timeEvidence :=
        match time with
        | none => []
        | some millis =>
          ["uuidv7_prefix_component=true", "uuidv7_prefix_time_millis=" ++ toString millis]
      return { result with
        matcherPrefix := result.matcherPrefix ++ prefixComponent c
        lossy := result.lossy || c.lossy
        requiresRecheck := result.requiresRecheck || c.lossy
        evidence := result.evidence ++ timeEvidence }

def closePrefixBounds (evidenceLabel : String)
    (result : IndexKeyPrefixBoundsResult) : IndexKeyPrefixBoundsResult :=
  let upper := advanceLexicographicUpperPrefix result.matcherPrefix
  { result with
    lowerBound := result.matcherPrefix
    upperBound := upper.getD []
    upperBoundUnbounded := upper.isNone
    evidence := result.evidence ++ ["index_key_prefix_builder=" ++ evidenceLabel,
       "index_key_prefix_magic=SBKO", "index_key_prefix_matcher_bytes=" ++
         toString result.matcherPrefix.length,
       "index_key_prefix_lower_bound_generated=true", "index_key_prefix_upper_bound_unbounded=" ++
         (if upper.isNone then "true" else "false"),
       "visibility_authority=false", "transaction_finality_authority=false"] }

def buildEncodedPrefixBoundsInternal (components : List IndexKeyEncodingComponent)
    (profile : IndexKeySemanticProfile) (evidenceLabel : String) :
    Except DiagnosticRecord IndexKeyPrefixBoundsResult :=
  if components.isEmpty then
    .error (makeIndexKeyEncodingDiagnostic "SB-INDEX-KEY-PREFIX-EMPTY" "index.key_prefix.empty")
  else if ¬profile.bytewiseStable then
    .error (makeIndexKeyEncodingDiagnostic "SB-INDEX-KEY-PREFIX-UNSTABLE-PROFILE"
      "index.key_prefix.unstable_profile_refused" profile.profileId)
  else
    closePrefixBounds evidenceLabel <$> components.foldlM appendPrefixComponent
      { matcherPrefix := kOrderPreservingMagic, requiresRecheck := profile.requiresRecheck }

def buildEncodedPrefixMatcher (components : List IndexKeyEncodingComponent)
    (profile : IndexKeySemanticProfile) :
    Except DiagnosticRecord IndexKeyPrefixBoundsResult :=
  buildEncodedPrefixBoundsInternal components profile "matcher"

def buildEncodedPrefixLowerBound (components : List IndexKeyEncodingComponent)
    (profile : IndexKeySemanticProfile) :
    Except DiagnosticRecord IndexKeyPrefixBoundsResult :=
  buildEncodedPrefixBoundsInternal components profile "lower_bound"

def buildEncodedPrefixUpperBound (components : List IndexKeyEncodingComponent)
    (profile : IndexKeySemanticProfile) :
    Except DiagnosticRecord IndexKeyPrefixBoundsResult :=
  buildEncodedPrefixBoundsInternal components profile "upper_bound"

/-! ## Comparison -/

def compareUnsignedBytes : Bytes → Bytes → Int
  | [], [] => 0
  | [], _ :: _ => -1
  | _ :: _, [] => 1
  | l :: left, r :: right =>
    if l < r then -1
    else if l > r then 1
    else compareUnsignedBytes left right

def isOrderPreservingIndexKeyEncoding (bytes : Bytes) : Bool :=
  kOrderPreservingMagic.isPrefixOf bytes

def isUnsafeLegacyIndexKeyEncoding (bytes : Bytes) : Bool := kUnsafeLegacyMagic.isPrefixOf bytes

def orderBytes (bytes : Bytes) : Bytes := bytes.drop 4

def compareEncodedIndexKeys (left right : Bytes) : Except DiagnosticRecord Int :=
  if isUnsafeLegacyIndexKeyEncoding left ∨ isUnsafeLegacyIndexKeyEncoding right then
    .error (makeIndexKeyEncodingDiagnostic "SB-INDEX-KEY-COMPARE-UNSAFE-LEGACY-ENVELOPE"
      "index.key_compare.unsafe_legacy_envelope")
  else if ¬isOrderPreservingIndexKeyEncoding left ∨ ¬isOrderPreservingIndexKeyEncoding right then
    .error (makeIndexKeyEncodingDiagnostic "SB-INDEX-KEY-COMPARE-BAD-ENVELOPE"
      "index.key_compare.bad_envelope")
  else .ok (compareUnsignedBytes (orderBytes left) (orderBytes right))

end ScratchBird.Index
