import ScratchBird.Storage.RowDataPage

/-!
# Filespace classes

`ResolveFilespaceClass` of `filespace_lifecycle.cpp`: which class of filespace a
page family belongs to, by the class of its object. An object that names no class
gets one from the page family. The recommended role of the filespace and the
evidence texts are left out.
-/

namespace ScratchBird.Storage

inductive FilespaceObjectClass where
  | unspecified | hotRow | coldRow | secondaryDeltaLedger | exactIndex
  | immutableGeneration | largeBlob | tempSpill | backupStream
  deriving DecidableEq

inductive FilespaceClass where
  | unknown | hotRow | coldRow | secondaryDeltaLedger | exactIndex
  | immutableGeneration | largeBlob | tempSpill | backupStream | forbidden
  deriving DecidableEq

def filespaceObjectClassName : FilespaceObjectClass → String
  | .unspecified => "unspecified"
  | .hotRow => "hot_row"
  | .coldRow => "cold_row"
  | .secondaryDeltaLedger => "secondary_delta_ledger"
  | .exactIndex => "exact_index"
  | .immutableGeneration => "immutable_generation"
  | .largeBlob => "large_blob"
  | .tempSpill => "temp_spill"
  | .backupStream => "backup_stream"

def filespaceClassName : FilespaceClass → String
  | .unknown => "unknown"
  | .hotRow => "hot_row"
  | .coldRow => "cold_row"
  | .secondaryDeltaLedger => "secondary_delta_ledger"
  | .exactIndex => "exact_index"
  | .immutableGeneration => "immutable_generation"
  | .largeBlob => "large_blob"
  | .tempSpill => "temp_spill"
  | .backupStream => "backup_stream"
  | .forbidden => "forbidden"

structure FilespaceClassDescriptor where
  filespaceClass : FilespaceClass := .unknown
  pageFamily : String := ""
  reason : String := ""

def descriptorForObjectClass : FilespaceObjectClass → FilespaceClassDescriptor
  | .hotRow => ⟨.hotRow, "data", "hot_row_mutable_data_pages"⟩
  | .coldRow => ⟨.coldRow, "data", "cold_row_retention_pages"⟩
  | .secondaryDeltaLedger => ⟨.secondaryDeltaLedger, "index", "secondary_delta_ledger_append_pages"⟩
  | .exactIndex => ⟨.exactIndex, "index", "exact_index_lookup_pages"⟩
  | .immutableGeneration => ⟨.immutableGeneration, "index", "immutable_generation_published_pages"⟩
  | .largeBlob => ⟨.largeBlob, "blob", "large_value_blob_payload_pages"⟩
  | .tempSpill => ⟨.tempSpill, "overflow", "temporary_spill_pages"⟩
  | .backupStream => ⟨.backupStream, "archive", "backup_stream_pages"⟩
  | .unspecified => {}

def dataPageFamilies : List String := ["data", "row_data"]

def indexPageFamilies : List String :=
  ["index", "index_btree", "index_btree_root", "index_btree_branch",
   "index_btree_leaf", "index_btree_posting", "index_hash", "index_bitmap",
   "index_summary", "index_inverted", "index_spatial", "index_vector",
   "index_graph", "index_statistics", "index_special_root"]

def systemPageFamilies : List String :=
  ["catalog", "config_root", "security_root", "allocation", "allocation_map",
   "startup", "database_header", "system_state", "bootstrap_reserved",
   "filespace_directory", "transaction", "transaction_inventory", "metrics"]

def pageFamilyCompatibleWithClass (pageFamily : String)
    (descriptor : FilespaceClassDescriptor) : Bool :=
  if pageFamily.isEmpty then true
  else match descriptor.filespaceClass with
  | .hotRow | .coldRow => dataPageFamilies.contains pageFamily
  | .secondaryDeltaLedger | .exactIndex | .immutableGeneration =>
    indexPageFamilies.contains pageFamily || systemPageFamilies.contains pageFamily
  | .largeBlob => ["blob", "overflow", "toast", "columnar", "vector", "graph"].contains pageFamily
  | .tempSpill => ["overflow", "toast", "index_temporary"].contains pageFamily
  | .backupStream => ["archive", "blob", "overflow"].contains pageFamily
  | .unknown | .forbidden => false

def defaultFilespaceObjectClassForPageFamily (pageFamily : String) :
    FilespaceObjectClass :=
  if dataPageFamilies.contains pageFamily then .hotRow
  else if indexPageFamilies.contains pageFamily then .exactIndex
  else if ["blob", "overflow", "toast"].contains pageFamily then .largeBlob
  else if ["columnar", "vector", "graph"].contains pageFamily then .largeBlob
  else if pageFamily == "archive" then .backupStream
  else if systemPageFamilies.contains pageFamily then .immutableGeneration
  else .hotRow

structure FilespaceClassRequest where
  databaseUuid : TypedUuid := {}
  filespaceUuid : TypedUuid := {}
  ownerObjectUuid : TypedUuid := {}
  objectClass : FilespaceObjectClass := .unspecified
  pageFamily : String := ""
  explicitObjectClass : Bool := false

structure FilespaceClassDecision where
  objectClass : FilespaceObjectClass
  filespaceClass : FilespaceClass
  pageFamily : String
  diagnostic : DiagnosticRecord

def makeFilespaceDiagnostic (severity : Severity) (code key : String)
    (detail : String := "") : DiagnosticRecord :=
  { diagnosticCode := code
    messageKey := key
    detail
    sourceComponent := "storage.filespace.lifecycle"
    severity }

def resolveFilespaceClass (request : FilespaceClassRequest) :
    Except DiagnosticRecord FilespaceClassDecision :=
  let objectClass := if request.objectClass = .unspecified
    then defaultFilespaceObjectClassForPageFamily request.pageFamily
    else request.objectClass
  let descriptor := descriptorForObjectClass objectClass
  if !isTypedEngineIdentity request.databaseUuid .database then
    .error (makeFilespaceDiagnostic .error "SB-FILESPACE-CLASS-DATABASE-UUID-INVALID"
      "storage.filespace_class.database_uuid_invalid")
  else if !isTypedEngineIdentity request.filespaceUuid .filespace then
    .error (makeFilespaceDiagnostic .error "SB-FILESPACE-CLASS-FILESPACE-UUID-INVALID"
      "storage.filespace_class.filespace_uuid_invalid")
  else if request.explicitObjectClass && !isTypedEngineIdentity request.ownerObjectUuid .object then
    .error (makeFilespaceDiagnostic .error "SB-FILESPACE-CLASS-OWNER-OBJECT-UUID-INVALID"
      "storage.filespace_class.owner_object_uuid_invalid" (filespaceObjectClassName objectClass))
  else if descriptor.filespaceClass = .unknown then
    .error (makeFilespaceDiagnostic .error "SB-FILESPACE-CLASS-OBJECT-CLASS-UNKNOWN"
      "storage.filespace_class.object_class_unknown" (filespaceObjectClassName objectClass))
  else if !pageFamilyCompatibleWithClass request.pageFamily descriptor then
    .error (makeFilespaceDiagnostic .error "SB-FILESPACE-CLASS-PAGE-FAMILY-INCOMPATIBLE"
      "storage.filespace_class.page_family_incompatible"
      (request.pageFamily ++ ":" ++ filespaceObjectClassName objectClass))
  else
    .ok
      { objectClass
        filespaceClass := descriptor.filespaceClass
        pageFamily := if request.pageFamily.isEmpty then descriptor.pageFamily
          else request.pageFamily
        diagnostic := makeFilespaceDiagnostic .info "SB-FILESPACE-CLASS-RESOLVED"
          "storage.filespace_class.resolved" descriptor.reason }

end ScratchBird.Storage
