import ScratchBird.Platform

/-!
# Page types and page families

The page types of `page_header.cpp` and the registry of `page_registry.cpp`. A
row of the registry is read here for one purpose, to tell which names a page
family may be asked for by: the name of a row, or the name of the family it
belongs to. The first row that answers to the name decides.

Of a row the filespace roles, the search key and the flags of the page manager
are left out.
-/

namespace ScratchBird.Storage

inductive PageType where
  | databaseHeader | allocationMap | catalog | transactionInventory | rowData
  | indexBtree | indexBtreeRoot | indexBtreeBranch | indexBtreeLeaf
  | indexBtreePosting | indexHash | indexBitmap | indexSummary | indexInverted
  | indexSpatial | indexVector | indexGraph | indexTemporary | indexStatistics
  | indexSpecialRoot | blob | metrics | archive | columnar | vector | graph
  | systemState | bootstrapReserved | filespaceDirectory | configRoot | securityRoot
  | filespaceLifecycleState | filespaceOperationRecord | filespacePreallocMap
  | filespaceQuarantineFence | shardPlacementMap | shardExtentMap
  | shardOperationState | clusterMemberPlacement | archiveManifest
  | foreignImportManifest | exportPackageManifest | importReconciliationMap
  | uuidRemapConflict | snapshotManifest | shadowManifest | protectedMaterialRoot
  | protectedMaterialVersion | protectedMaterialChunk | protectedMaterialPolicy
  | auditChain | systemJournal | repairManifest | rebuildManifest | salvageManifest
  | damageMap | reachabilityMap | typedPayloadDependency | typeMigrationState
  | resourceDependencyMap | indexResourceState | typeStatisticsState
  | derivedStructureManifest | nameRegistrySuperseded | reservedLocal
  | clusterDecision | clusterRoute | clusterCatalog | clusterTransaction
  | encryptedOpaque | unknown
  deriving DecidableEq

def pageTypeName : PageType → String
  | .databaseHeader => "database_header"
  | .allocationMap => "allocation_map"
  | .catalog => "catalog"
  | .transactionInventory => "transaction_inventory"
  | .rowData => "row_data"
  | .indexBtree => "index_btree"
  | .indexBtreeRoot => "index_btree_root"
  | .indexBtreeBranch => "index_btree_branch"
  | .indexBtreeLeaf => "index_btree_leaf"
  | .indexBtreePosting => "index_btree_posting"
  | .indexHash => "index_hash"
  | .indexBitmap => "index_bitmap"
  | .indexSummary => "index_summary"
  | .indexInverted => "index_inverted"
  | .indexSpatial => "index_spatial"
  | .indexVector => "index_vector"
  | .indexGraph => "index_graph"
  | .indexTemporary => "index_temporary"
  | .indexStatistics => "index_statistics"
  | .indexSpecialRoot => "index_special_root"
  | .blob => "blob"
  | .metrics => "metrics"
  | .archive => "archive"
  | .columnar => "columnar"
  | .vector => "vector"
  | .graph => "graph"
  | .systemState => "system_state"
  | .bootstrapReserved => "bootstrap_reserved"
  | .filespaceDirectory => "filespace_directory"
  | .configRoot => "config_root"
  | .securityRoot => "security_root"
  | .filespaceLifecycleState => "filespace_lifecycle_state"
  | .filespaceOperationRecord => "filespace_operation_record"
  | .filespacePreallocMap => "filespace_prealloc_map"
  | .filespaceQuarantineFence => "filespace_quarantine_fence"
  | .shardPlacementMap => "shard_placement_map"
  | .shardExtentMap => "shard_extent_map"
  | .shardOperationState => "shard_operation_state"
  | .clusterMemberPlacement => "cluster_member_placement"
  | .archiveManifest => "archive_manifest"
  | .foreignImportManifest => "foreign_import_manifest"
  | .exportPackageManifest => "export_package_manifest"
  | .importReconciliationMap => "import_reconciliation_map"
  | .uuidRemapConflict => "uuid_remap_conflict"
  | .snapshotManifest => "snapshot_manifest"
  | .shadowManifest => "shadow_manifest"
  | .protectedMaterialRoot => "protected_material_root"
  | .protectedMaterialVersion => "protected_material_version"
  | .protectedMaterialChunk => "protected_material_chunk"
  | .protectedMaterialPolicy => "protected_material_policy"
  | .auditChain => "audit_chain"
  | .systemJournal => "system_journal"
  | .repairManifest => "repair_manifest"
  | .rebuildManifest => "rebuild_manifest"
  | .salvageManifest => "salvage_manifest"
  | .damageMap => "damage_map"
  | .reachabilityMap => "reachability_map"
  | .typedPayloadDependency => "typed_payload_dependency"
  | .typeMigrationState => "type_migration_state"
  | .resourceDependencyMap => "resource_dependency_map"
  | .indexResourceState => "index_resource_state"
  | .typeStatisticsState => "type_statistics_state"
  | .derivedStructureManifest => "derived_structure_manifest"
  | .nameRegistrySuperseded => "name_registry_superseded"
  | .reservedLocal => "reserved_local"
  | .clusterDecision => "cluster_decision"
  | .clusterRoute => "cluster_route"
  | .clusterCatalog => "cluster_catalog"
  | .clusterTransaction => "cluster_transaction"
  | .encryptedOpaque => "encrypted_opaque"
  | .unknown => "unknown"

inductive PageFamily where
  | startup | filespaceControl | allocation | catalog | transaction | data | index
  | blob | metrics | archive | columnar | vector | graph | shardPlacement
  | clusterPrivate | encryptedOrOpaque | importExport | protectedMaterial | audit
  | repair | typedDependency | superseded | reserved | unknown
  deriving DecidableEq

def pageFamilyName : PageFamily → String
  | .startup => "startup"
  | .filespaceControl => "filespace_control"
  | .allocation => "allocation"
  | .catalog => "catalog"
  | .transaction => "transaction"
  | .data => "data"
  | .index => "index"
  | .blob => "blob"
  | .metrics => "metrics"
  | .archive => "archive"
  | .columnar => "columnar"
  | .vector => "vector"
  | .graph => "graph"
  | .shardPlacement => "shard_placement"
  | .clusterPrivate => "cluster_private"
  | .encryptedOrOpaque => "encrypted_or_opaque"
  | .importExport => "import_export"
  | .protectedMaterial => "protected_material"
  | .audit => "audit"
  | .repair => "repair"
  | .typedDependency => "typed_dependency"
  | .superseded => "superseded"
  | .reserved => "reserved"
  | .unknown => "unknown"

inductive PageRegistryStatus where
  | selectedCurrent | compatibilityTransition | implemented | partiallyImplemented
  | reserved | deferred | superseded | disabled | quarantined
  deriving DecidableEq

def statusAllowsProductSupport (status : PageRegistryStatus) : Bool :=
  status == .selectedCurrent || status == .compatibilityTransition || status == .implemented

structure PageFamilyDescriptor where
  pageType : PageType
  family : PageFamily
  registryStatus : PageRegistryStatus
  stableName : String
  supportedLocalRead : Bool
  supportedLocalWrite : Bool

def PageFamilyDescriptor.reserved (descriptor : PageFamilyDescriptor) : Bool :=
  !statusAllowsProductSupport descriptor.registryStatus

/-- Consecutive rows of the registry that differ in the page type. The stable name
of every row is the name of its page type. -/
def rows (family : PageFamily) (status : PageRegistryStatus) (read write : Bool)
    (pageTypes : List PageType) : List PageFamilyDescriptor :=
  pageTypes.map fun pageType => ⟨pageType, family, status, pageTypeName pageType, read, write⟩

def builtinPageFamilyRegistry : List PageFamilyDescriptor :=
  rows .startup .implemented true true [.databaseHeader] ++
  rows .allocation .implemented true true [.allocationMap] ++
  rows .catalog .implemented true true [.catalog] ++
  rows .transaction .implemented true true [.transactionInventory] ++
  rows .data .implemented true true [.rowData] ++
  rows .index .implemented true true [.indexBtree, .indexBtreeRoot,
    .indexBtreeBranch, .indexBtreeLeaf, .indexBtreePosting, .indexHash,
    .indexBitmap, .indexSummary, .indexInverted, .indexSpatial, .indexVector,
    .indexGraph, .indexTemporary, .indexStatistics, .indexSpecialRoot] ++
  rows .blob .implemented true true [.blob] ++
  rows .metrics .implemented true true [.metrics] ++
  rows .archive .implemented true true [.archive] ++
  rows .columnar .implemented true true [.columnar] ++
  rows .vector .implemented true true [.vector] ++
  rows .graph .implemented true true [.graph] ++
  rows .startup .implemented true true [.systemState] ++
  rows .startup .reserved true false [.bootstrapReserved] ++
  rows .filespaceControl .implemented true true [.filespaceDirectory] ++
  rows .catalog .implemented true true [.configRoot, .securityRoot] ++
  rows .filespaceControl .reserved false false [.filespaceLifecycleState,
    .filespaceOperationRecord, .filespacePreallocMap, .filespaceQuarantineFence] ++
  rows .shardPlacement .reserved false false [.shardPlacementMap, .shardExtentMap,
    .shardOperationState, .clusterMemberPlacement] ++
  rows .importExport .reserved false false [.archiveManifest,
    .foreignImportManifest, .exportPackageManifest, .importReconciliationMap,
    .uuidRemapConflict, .snapshotManifest, .shadowManifest] ++
  rows .protectedMaterial .reserved false false [.protectedMaterialRoot,
    .protectedMaterialVersion, .protectedMaterialChunk, .protectedMaterialPolicy] ++
  rows .audit .reserved false false [.auditChain, .systemJournal] ++
  rows .repair .reserved false false [.repairManifest, .rebuildManifest,
    .salvageManifest, .damageMap, .reachabilityMap] ++
  rows .typedDependency .reserved false false [.typedPayloadDependency,
    .typeMigrationState, .resourceDependencyMap, .indexResourceState,
    .typeStatisticsState, .derivedStructureManifest] ++
  rows .superseded .superseded false false [.nameRegistrySuperseded] ++
  rows .reserved .reserved true false [.reservedLocal] ++
  rows .clusterPrivate .deferred true false [.clusterDecision, .clusterRoute,
    .clusterCatalog, .clusterTransaction] ++
  rows .encryptedOrOpaque .disabled true false [.encryptedOpaque]

def isKnownPageFamilyName (stableName : String) : Bool :=
  if stableName.isEmpty then false
  else match builtinPageFamilyRegistry.find? fun descriptor =>
      descriptor.stableName == stableName || pageFamilyName descriptor.family == stableName with
  | some descriptor => descriptor.supportedLocalRead ||
      descriptor.supportedLocalWrite || descriptor.reserved
  | none => false

end ScratchBird.Storage
