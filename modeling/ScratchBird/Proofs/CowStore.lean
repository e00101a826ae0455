import ScratchBird.Lib.Replay
import ScratchBird.Proofs.Visibility
import ScratchBird.Storage.CowStore

/-!
# What a run leaves on a row page

A mutation relinks old versions and renumbers ordinals, and neither matters to a
reader. `StoredVersion` is the rest of a version, which no later mutation
touches, and a page is described by the list of its stored versions: every write
appends one to it.

The invariant of runs is `Lineage`. Its one fact that is not bookkeeping is the
order of two versions of the same row. The older one was rolled back, or both
have the same creator, or the older one's creator committed, and before the
newer one's if that has committed too. A writer establishes it because it stops
at any version another open transaction has written; begins and finalizations
keep it because an outcome never changes and a commit takes a fresh sequence.
-/

namespace ScratchBird.Storage

open Lib Mga
open List hiding lookup

variable {κ β α : Type} {pageGeneration pageSize bytes bytes' millis n predecessor : Nat}
  {e e' writer execution entry x x' y y' : TransactionInventoryEntry} {rowUuid relation : TypedUuid}
  {before after : LocalTransactionInventory} {issued : Except DiagnosticRecord TypedUuid}
  {planned : CopyOnWriteMutationState} {inventory : LocalTransactionInventory}
  {f : RowDataRecord κ → β} {seen : List (RowDataRecord κ)} {row newRow : RowDataRecord κ}
  {rowPage written : RowDataPageBody κ} {result : PhysicalMgaCowMutationResult κ}
  {cellBytes : κ → Except DiagnosticRecord Nat} {rows : List (RowDataRecord κ)}

structure StoredVersion (κ : Type) where
  rowUuid : TypedUuid
  transactionUuid : TypedUuid
  localTransactionId : Nat
  rowVersion : Nat
  deleted : Bool
  cells : List κ

def RowDataRecord.stored (row : RowDataRecord κ) : StoredVersion κ :=
  ⟨row.rowUuid, row.transactionUuid, row.localTransactionId, row.rowVersion, row.deleted, row.cells⟩

/-! ## Building a page -/

/-- Ordinals and slots are all that laying a page out assigns. -/
theorem map_assignOrdinalsFrom (hf : ∀ row ordinal slot,
      f { row with internalRowOrdinal := ordinal, stableSlotId := slot } =
        f row) (index : Nat) (rows : List (RowDataRecord κ)) :
    (assignOrdinalsFrom index rows).map f = rows.map f := by
  induction rows generalizing index with
  | nil => rfl
  | cons row rows ih => rw [assignOrdinalsFrom, map_cons, map_cons, ih, hf]

theorem map_modify_of_eq {f : α → β} {g : α → α} (h : ∀ a, f (g a) = f a)
    (l : List α) (i : Nat) : (l.modify i g).map f = l.map f := by
  induction l generalizing i with
  | nil => cases i <;> rfl
  | cons a l ih =>
    cases i with
    | zero => rw [List.modify_zero_cons, map_cons, map_cons, h]
    | succ i => rw [List.modify_succ_cons, map_cons, map_cons, ih]

/-- Relinking touches the next link only. -/
theorem map_relinkRows (hf : ∀ row version sequence, f (linkNext version sequence row) = f row)
    (rows : List (RowDataRecord κ)) (base : BaseRowSelection κ) (rowUuid : TypedUuid)
    (versionUuid : Uuid) (sequence : Nat) :
    (relinkRows rows base rowUuid versionUuid sequence).map f = rows.map f := by
  rw [relinkRows]
  split
  · refine map_modify_of_eq ?_ _ _
    intro row
    exact hf row _ _
  · split
    · rw [map_map]
      refine map_congr_left ?_
      intro row _
      rw [Function.comp]
      split
      · exact hf row _ _
      · rfl
    · rfl

theorem checkRow_valid (h : checkRow pageGeneration seen row = none) :
    validRowIdentity row = true := by
  rw [checkRow, guard_eq_none_iff, guard_eq_none_iff] at h
  obtain ⟨_, hvalid, _⟩ := h
  rw [not_or, not_not] at hvalid
  exact hvalid.1

theorem layOutRows_cons
    (h : layOutRows cellBytes pageSize pageGeneration seen bytes (row :: rows) = .ok bytes') :
    checkRow pageGeneration seen row = none ∧
      ∃ next, layOutRows cellBytes pageSize pageGeneration (row :: seen) next
        rows = .ok bytes' := by
  rw [layOutRows] at h
  split at h
  · cases h
  next hcheck =>
  obtain ⟨next, -, h⟩ := bind_eq_ok_iff.mp h
  exact ⟨hcheck, next, h⟩

theorem layOutRows_valid
    (h : layOutRows cellBytes pageSize pageGeneration seen bytes rows = .ok bytes') :
    ∀ row ∈ rows, validRowIdentity row = true := by
  induction rows generalizing seen bytes with
  | nil =>
    intro row hrow
    cases hrow
  | cons first rows ih =>
    obtain ⟨hcheck, _, h⟩ := layOutRows_cons h
    intro row hrow
    rcases mem_cons.mp hrow with rfl | hrow
    · exact checkRow_valid hcheck
    · exact ih h row hrow

structure Built (body built : RowDataPageBody κ) : Prop where
  relation : built.relationUuid = body.relationUuid
  number : built.pageNumber = body.pageNumber
  stored : built.rows.map RowDataRecord.stored = body.rows.map RowDataRecord.stored
  valid : ∀ row ∈ built.rows, validRowIdentity row = true

theorem prepareRowDataPage_ok {body built : RowDataPageBody κ}
    (h : prepareRowDataPage cellBytes pageSize body = .ok built) : Built body built := by
  rw [prepareRowDataPage, buildRowDataPageBody] at h
  simp only [rowPageError, guard_eq_ok_iff, bind_eq_ok_iff] at h
  obtain ⟨_, _, _, bytes, hrows, _, _, _, h⟩ := h
  cases h
  exact ⟨rfl, rfl, map_assignOrdinalsFrom (fun _ _ _ => rfl) _ _, layOutRows_valid hrows⟩

/-! ## The selected base -/

def Settled (writer e : TransactionInventoryEntry) : Prop :=
  e.state = .rolledBack ∨ e.localId = writer.localId ∨ e.state = .committed

/-- The order a row's versions keep, read off their creators' entries. -/
def Precedes (x y : TransactionInventoryEntry) : Prop :=
  x.state = .rolledBack ∨ x.localId = y.localId ∨ (x.state = .committed ∧
      (y.state = .committed → x.commitSequence < y.commitSequence))

structure CreatedBy (v : StoredVersion κ) (e : TransactionInventoryEntry) : Prop where
  id : e.localId = v.localTransactionId
  uuid : e.identity.transactionUuid = v.transactionUuid
  state : e.state = .active ∨ e.state = .committed ∨ e.state = .rolledBack

structure Lineage (inventory : LocalTransactionInventory)
    (versions : List (StoredVersion κ)) : Prop where
  payload : ∀ v ∈ versions, v.deleted = false → v.cells ≠ []
  bounded : ∀ v ∈ versions, v.rowVersion ≤ u64Max
  ascending : versions.Pairwise fun a b => a.rowUuid = b.rowUuid → a.rowVersion < b.rowVersion
  created : ∀ v ∈ versions, ∃ e ∈ inventory.entries, CreatedBy v e
  ordered : versions.Pairwise fun a b => a.rowUuid = b.rowUuid →
    ∀ x ∈ inventory.entries, ∀ y ∈ inventory.entries, CreatedBy a x → CreatedBy b y → Precedes x y

theorem lineage_nil (inventory : LocalTransactionInventory) :
    Lineage inventory ([] : List (StoredVersion κ)) :=
  ⟨by simp, by simp, List.Pairwise.nil, by simp, List.Pairwise.nil⟩

theorem rowCreator_ok (h : rowCreator inventory row = .ok e) :
    e ∈ inventory.entries ∧ e.localId = row.localTransactionId ∧
      e.identity.transactionUuid = row.transactionUuid := by
  rw [rowCreator, bind_eq_ok_iff] at h
  obtain ⟨creator, hlookup, h⟩ := h
  obtain ⟨huuid, h⟩ := guard_eq_ok_iff.mp h
  cases h
  obtain ⟨hmem, hid, _⟩ := lookupLocalTransaction_ok hlookup
  exact ⟨hmem, hid, not_not.mp huuid⟩

theorem pairwise_zipIdx {r : α → α → Prop} {l : List α}
    (h : l.Pairwise r) : l.zipIdx.Pairwise fun c d => r c.1 d.1 := by
  rw [← pairwise_map (f := Prod.fst), zipIdx_map_fst]
  exact h

/-- Newest first is page order backwards. -/
theorem candidatesFor_eq (h : rows.Pairwise fun a b =>
      a.rowUuid = b.rowUuid → a.rowVersion < b.rowVersion) :
    candidatesFor rows rowUuid =
      (rows.zipIdx.filter fun c => decide (c.1.rowUuid = rowUuid)).reverse := by
  refine insertionSort_eq_reverse ?_
  refine ((pairwise_zipIdx h).filter _).imp_of_mem ?_
  intro c d hc hd hcd
  rw [mem_filter, decide_eq_true_eq] at hc hd
  exact hcd (hc.2.trans hd.2.symm)

section

variable {rows : List (RowDataRecord κ)} {c : RowDataRecord κ × Nat}

theorem mem_candidatesFor :
    c ∈ candidatesFor rows rowUuid ↔ c ∈ rows.zipIdx ∧ c.1.rowUuid = rowUuid := by
  rw [candidatesFor, mem_insertionSort, mem_filter, decide_eq_true_eq]

theorem mem_zipIdx_of_mem (h : row ∈ rows) : ∃ c ∈ rows.zipIdx, c.1 = row := by
  rw [← zipIdx_map_fst 0 rows] at h
  exact mem_map.mp h

theorem candidatesFor_ordered (hlineage : Lineage inventory (rows.map RowDataRecord.stored)) :
    (candidatesFor rows rowUuid).Pairwise fun c d =>
      ∀ x ∈ inventory.entries, ∀ y ∈ inventory.entries,
        CreatedBy d.1.stored x → CreatedBy c.1.stored y → Precedes x y := by
  rw [candidatesFor_eq (pairwise_map.mp hlineage.ascending), List.pairwise_reverse]
  refine ((pairwise_zipIdx (pairwise_map.mp hlineage.ordered)).filter _).imp_of_mem ?_
  intro c d hc hd hcd
  rw [mem_filter, decide_eq_true_eq] at hc hd
  exact hcd (hc.2.trans hd.2.symm)

theorem derivedFrom_metadataForRow (hvalid : validRowIdentity row = true)
    (hpayload : row.deleted = false → row.cells ≠ []) (e : TransactionInventoryEntry) :
    DerivedFrom e row.deleted (metadataForRow row e) := by
  rw [validRowIdentity] at hvalid
  simp only [Bool.and_eq_true, Bool.or_eq_true, bne_iff_ne, decide_eq_true_eq, beq_iff_eq,
    isTypedEngineIdentity] at hvalid
  obtain ⟨⟨⟨⟨⟨⟨⟨⟨⟨⟨hrow, htransaction⟩, hversion⟩, hdistinct⟩, _⟩, hsequence⟩, _⟩,
    _⟩, _⟩, hprevious⟩, hnext⟩ := hvalid
  refine ⟨rfl, rfl, rfl, rfl, ⟨hversion, hdistinct⟩, ?_, hsequence, ?_, ?_, ?_⟩
  · rw [metadataForRow, observeRowIdentity]
    simp [hrow]
  · intro hdeleted
    have := hpayload hdeleted
    simp [metadataForRow, this]
  · intro hhas
    rw [RowVersionChainLinks.hasPrevious, bne_iff_ne] at hhas
    exact hprevious.resolve_left hhas
  · intro hhas
    rw [RowVersionChainLinks.hasNext, bne_iff_ne] at hhas
    exact hnext.resolve_left hhas

/-- The view `selectBaseRow` makes for itself. -/
def baseSnapshot (inventory : LocalTransactionInventory) (writer : TransactionInventoryEntry) :
    VisibilitySnapshot :=
  { latestCommittedSnapshot inventory with
    readerTransaction := writer.localId
    allowReaderOwnUncommitted := true }

section

variable (hwf : WellFormed inventory)
include hwf

theorem visible_to_base (he : e ∈ inventory.entries) {m : RowVersionMetadata} {deleted : Bool}
    (hm : DerivedFrom e deleted m)
    (hstate : e.state = .committed ∨ e.state = .active ∧ e.localId = writer.localId) :
    (observeVersionEffectVisibility m (baseSnapshot inventory writer)).decision = .visible := by
  have hvisible : inventoryVisibilityState e = e.state := by
    refine inventoryVisibilityState_of_not_archived ?_ ((hwf.entry e he).origin_none ?_) <;>
      rcases hstate with hs | ⟨hs, -⟩ <;> simp [hs]
  rw [observeVersionEffectVisibility, (hm.evaluate_spec (fun _ => rfl) hwf he).2, hvisible]
  have hid := (hwf.entry e he).localId_valid
  rcases hstate with hs | ⟨hs, hown⟩
  · have hle : e.localId ≤ latestCommittedLocalTransactionId inventory := by
      refine le_greatestOf_iff.mpr (.inr ⟨e, he, ?_, Nat.le_refl _⟩)
      rw [Bool.and_eq_true, hasCommittedInventoryOutcome_iff]
      exact ⟨hvisible.trans hs, hid⟩
    simp [hs, evaluateCommitted, baseSnapshot, latestCommittedSnapshot, hm.creatorId,
      Nat.not_lt.mpr hle]
  · simp [hs, baseSnapshot, ← hown, hid]

section

variable (hlineage : Lineage inventory (rows.map RowDataRecord.stored))
  (hvalid : ∀ row ∈ rows, validRowIdentity row = true)
include hlineage hvalid

/-- The walk passes over versions that were rolled back and stops at the first
that was not, which is settled. -/
theorem selectCandidate_stops {candidates : List (RowDataRecord κ × Nat)}
    {found : Option (RowDataRecord κ × Nat)} (hrows : ∀ c ∈ candidates, c.1 ∈ rows)
    (h : selectCandidate inventory writer (baseSnapshot inventory writer) candidates = .ok found) :
    ∃ newer older, candidates = newer ++ older ∧ (∀ c ∈ found, c ∈ older.head?) ∧
      (∀ c ∈ newer, ∀ e ∈ inventory.entries,
        e.localId = c.1.localTransactionId → e.state = .rolledBack) ∧
      ∀ c ∈ older.head?, ∀ e ∈ inventory.entries, e.localId = c.1.localTransactionId →
        e.state ≠ .rolledBack ∧ Settled writer e := by
  induction candidates with
  | nil =>
    cases h
    exact ⟨[], [], rfl, nofun, nofun, nofun⟩
  | cons first rest ih =>
    obtain ⟨hfirst, hrest⟩ := forall_mem_cons.mp hrows
    have hstored := mem_map_of_mem (f := RowDataRecord.stored) hfirst
    obtain ⟨e, he, hby⟩ := hlineage.created _ hstored
    rw [selectCandidate, bind_eq_ok_iff] at h
    obtain ⟨creator, hcreator, h⟩ := h
    obtain ⟨hmem, hid, -⟩ := rowCreator_ok hcreator
    obtain rfl : creator = e := hwf.entry_unique hmem he (hid.trans hby.id.symm)
    have honly : ∀ x ∈ inventory.entries, x.localId = first.1.localTransactionId → x = creator :=
      fun x hx hxid => hwf.entry_unique hx he (hxid.trans hid.symm)
    obtain ⟨hwait, h⟩ := guard_eq_ok_iff.mp h
    by_cases hrolled : creator.state = .rolledBack
    · rw [if_pos (.inl hrolled)] at h
      obtain ⟨newer, older, rfl, hfound, hnewer, hhead⟩ := ih hrest h
      refine ⟨first :: newer, older, rfl, hfound, forall_mem_cons.mpr ⟨?_, hnewer⟩, hhead⟩
      intro x hx hxid
      rwa [honly x hx hxid]
    · have hstate : creator.state = .committed ∨
          creator.state = .active ∧ creator.localId = writer.localId := by
        rcases hby.state with hs | hs | hs
        · rw [waitsForOther, hs] at hwait
          exact .inr ⟨hs, by simpa using hwait⟩
        · exact .inl hs
        · exact absurd hs hrolled
      have hderived := derivedFrom_metadataForRow (hvalid _ hfirst) (hlineage.payload _ hstored)
        creator
      rw [if_neg (by rcases hstate with hs | ⟨hs, -⟩ <;> simp [hs])] at h
      simp only [visible_to_base hwf he hderived hstate, if_true] at h
      refine ⟨[], first :: rest, rfl, ?_, nofun, ?_⟩
      · split at h <;> cases h <;> simp
      · rintro _ ⟨⟩ x hx hxid
        rw [honly x hx hxid]
        exact ⟨hrolled, .inr (hstate.symm.imp_left And.right)⟩

/-- Of the row's versions that were not rolled back the one the walk stops at is
the last. -/
theorem selectBaseRow_last {selected : BaseRowSelection κ}
    (h : selectBaseRow rows inventory writer rowUuid = .ok selected) :
    ∃ last : Option (RowDataRecord κ × Nat), (∀ c ∈ selected.base, c ∈ last) ∧
      (∀ c ∈ last, ∀ y ∈ inventory.entries, y.localId = c.1.localTransactionId →
        y.state ≠ .rolledBack ∧ Settled writer y) ∧
      ∀ row ∈ rows, row.rowUuid = rowUuid → ∀ x ∈ inventory.entries,
        x.localId = row.localTransactionId → x.state = .rolledBack ∨
          ∃ c ∈ last, ∃ y ∈ inventory.entries, y.localId = c.1.localTransactionId ∧
            Precedes x y := by
  rw [selectBaseRow, bind_eq_ok_iff] at h
  obtain ⟨found, hselect, h⟩ := h
  cases h
  have hmem : ∀ c ∈ candidatesFor rows rowUuid, c.1 ∈ rows :=
    fun c hc => List.fst_mem_of_mem_zipIdx (mem_candidatesFor.mp hc).1
  obtain ⟨newer, older, hsplit, hfound, hnewer, hhead⟩ :=
    selectCandidate_stops hwf hlineage hvalid hmem hselect
  refine ⟨older.head?, hfound, hhead, ?_⟩
  intro row hrow huuid x hx hxid
  obtain ⟨e, he, hxby⟩ := hlineage.created _ (mem_map_of_mem hrow)
  obtain rfl : x = e := hwf.entry_unique hx he (hxid.trans hxby.id.symm)
  obtain ⟨c, hc, rfl⟩ := mem_zipIdx_of_mem hrow
  have hc := mem_candidatesFor.mpr ⟨hc, huuid⟩
  have hordered : (candidatesFor rows rowUuid).Pairwise _ := candidatesFor_ordered hlineage
  rw [hsplit] at hc hordered hmem
  rcases mem_append.mp hc with hin | hin
  · exact .inl (hnewer c hin x hx hxid)
  cases older with
  | nil => cases hin
  | cons first older =>
    obtain ⟨y, hy, hyby⟩ := hlineage.created _ (mem_map_of_mem (hmem first (by simp)))
    refine .inr ⟨first, rfl, y, hy, hyby.id, ?_⟩
    rcases mem_cons.mp hin with rfl | hin
    · exact .inr (.inl (hxid.trans hyby.id.symm))
    · exact (pairwise_cons.mp (pairwise_append.mp hordered).2.1).1 c hin x hx y hy hxby hyby

theorem settled_of_selectBaseRow {base : BaseRowSelection κ}
    (h : selectBaseRow rows inventory writer rowUuid = .ok base) :
    ∀ v ∈ rows.map RowDataRecord.stored, v.rowUuid = rowUuid →
      ∀ e ∈ inventory.entries, CreatedBy v e → Settled writer e := by
  obtain ⟨last, -, hlast, hall⟩ := selectBaseRow_last hwf hlineage hvalid h
  intro v hv huuid x hx hby
  obtain ⟨row, hrow, rfl⟩ := mem_map.mp hv
  rcases hall row hrow huuid x hx hby.id with hrolled | ⟨c, hc, y, hy, hyid, hprecedes⟩
  · exact .inl hrolled
  rcases hprecedes with hrolled | hsame | hcommitted
  · exact .inl hrolled
  · rw [hwf.entry_unique hx hy hsame]
    exact (hlast c hc y hy hyid).2
  · exact .inr (.inr hcommitted.1)

end

end

theorem maxRowVersion_of_selectBaseRow {base : BaseRowSelection κ}
    (h : selectBaseRow rows inventory writer rowUuid = .ok base) :
    base.maxRowVersion = maxRowVersion rows rowUuid := by
  rw [selectBaseRow, bind_eq_ok_iff] at h
  obtain ⟨_, _, h⟩ := h
  cases h
  rfl

end

/-! ## One call -/

def PhysicalMgaCowMutation.version (request : PhysicalMgaCowMutation κ)
    (localTransactionId sequence : Nat) : StoredVersion κ :=
  ⟨request.rowUuid, request.transactionUuid, localTransactionId, sequence,
    request.kind == .deleteRow,
    if request.kind = .deleteRow then [] else request.cells⟩

section

variable {cellBytes : κ → Except DiagnosticRecord Nat} {device device' : CowDevice κ}
  {active : TransactionInventoryEntry} {request : PhysicalMgaCowMutation κ}
  {base : BaseRowSelection κ}

section

variable (h : appendVersion cellBytes pageSize active execution rowPage base request issued =
    .ok (planned, newRow, written))
include h

/-- What a mutation writes: the rows of the page it has read, relinked, and the
new version. -/
theorem appendVersion_written :
    (base.maxRowVersion + 1) % (u64Max + 1) ≠ 0 ∧ ∃ versionUuid,
      prepareRowDataPage cellBytes pageSize
        { rowPage with
          rows := relinkRows rowPage.rows base request.rowUuid versionUuid
            ((base.maxRowVersion + 1) % (u64Max + 1)) ++
            [newRowVersion rowPage base request active.localId versionUuid
              ((base.maxRowVersion + 1) % (u64Max + 1))] } = .ok written := by
  rw [appendVersion] at h
  split at h
  · cases h
  simp only [cowError, guard_eq_ok_iff, bind_eq_ok_iff] at h
  obtain ⟨hne, _, _, versionUuid, _, _, page, hprepared, h⟩ := h
  cases h
  exact ⟨hne, versionUuid.value, hprepared⟩

theorem appendVersion_ok :
    (base.maxRowVersion + 1) % (u64Max + 1) ≠ 0 ∧ written.relationUuid = rowPage.relationUuid ∧
      written.pageNumber = rowPage.pageNumber ∧ written.rows.map RowDataRecord.stored =
        rowPage.rows.map RowDataRecord.stored ++ [request.version active.localId
            ((base.maxRowVersion + 1) % (u64Max + 1))] ∧
      ∀ row ∈ written.rows, validRowIdentity row = true := by
  obtain ⟨hne, versionUuid, hprepared⟩ := appendVersion_written h
  have hbuilt := prepareRowDataPage_ok hprepared
  refine ⟨hne, hbuilt.relation, hbuilt.number, ?_, hbuilt.valid⟩
  rw [hbuilt.stored, map_append, map_relinkRows (fun _ _ _ => rfl)]
  rfl

/-- What is not an insert replaces a version. -/
theorem appendVersion_based (hkind : request.kind ≠ .insert) :
    ∃ row index, base.base = some (row, index) ∧ newRow.previousRowVersion = row.rowVersion := by
  rw [appendVersion] at h
  split at h
  · cases h
  next hcheck =>
  rw [checkBaseFor, guard_eq_none_iff, guard_eq_none_iff] at hcheck
  have hfound : base.found = true := by
    by_contra hnone
    refine hcheck.2.1 ⟨?_, hnone⟩
    cases hk : request.kind with
    | insert => exact absurd hk hkind
    | update => exact .inl rfl
    | deleteRow => exact .inr rfl
  obtain ⟨⟨row, index⟩, hbase⟩ := Option.isSome_iff_exists.mp hfound
  simp only [cowError, guard_eq_ok_iff, bind_eq_ok_iff] at h
  obtain ⟨-, _, -, versionUuid, -, -, _, -, h⟩ := h
  cases h
  refine ⟨row, index, hbase, ?_⟩
  rw [newRowVersion]
  simp only [hbase]

end

theorem writable_of_validate (h : validateCopyOnWriteTransactionState entry = none) :
    entry.state = .active ∧ entry.rollbackOnly = false := by
  rw [validateCopyOnWriteTransactionState, guard_eq_none_iff, guard_eq_none_iff] at h
  obtain ⟨_, hactive, _⟩ := h
  rw [not_or, not_not] at hactive
  exact ⟨hactive.1, Bool.eq_false_iff.mpr hactive.2⟩

theorem admitExistingTransaction_ok
    (h : admitExistingTransaction inventory request = .ok (active, execution)) :
    active ∈ inventory.entries ∧ active.localId = request.existingLocalTransactionId ∧
      active.uuid = request.transactionUuid.value ∧ active.state = .active := by
  rw [admitExistingTransaction, bind_eq_ok_iff] at h
  obtain ⟨existing, hlookup, h⟩ := h
  obtain ⟨huuid, h⟩ := guard_eq_ok_iff.mp h
  simp only at h
  split at h
  · cases h
  next hadmitted =>
  cases h
  obtain ⟨hmem, hid, _⟩ := lookupLocalTransaction_ok hlookup
  refine ⟨hmem, hid, not_not.mp huuid, ?_⟩
  have hstate := (writable_of_validate hadmitted).1
  split at hstate
  · exact hstate
  · exact hstate

/-- The versions on a page; none if the page was never written. -/
def CowDevice.pageRows (device : CowDevice κ) (pageNumber : Nat) : List (RowDataRecord κ) :=
  match lookup RowDataPageBody.pageNumber pageNumber device.rowPages with
  | none => []
  | some body => body.rows

theorem lookup_putPage (device : CowDevice κ) (body : RowDataPageBody κ) :
    lookup RowDataPageBody.pageNumber body.pageNumber
      (device.putPage body).rowPages = some body := by
  rw [CowDevice.putPage]
  cases hfind : lookup RowDataPageBody.pageNumber body.pageNumber device.rowPages with
  | none =>
    rw [lookup] at hfind ⊢
    rw [List.find?_append, hfind, List.find?_singleton, if_pos (by simp)]
    rfl
  | some old => exact lookup_modify_self hfind rfl

theorem readRowDataPage_ok {number : Nat}
    (h : readRowDataPage device relation number predecessor = .ok rowPage) :
    rowPage.rows = device.pageRows number ∧ rowPage.relationUuid = relation ∧
      rowPage.pageNumber = number := by
  rw [readRowDataPage] at h
  rw [CowDevice.pageRows]
  cases hfind : lookup RowDataPageBody.pageNumber number device.rowPages with
  | none =>
    rw [hfind] at h
    cases h
    exact ⟨rfl, rfl, rfl⟩
  | some body =>
    rw [hfind] at h
    obtain ⟨hrelation, h⟩ := guard_eq_ok_iff.mp h
    cases h
    exact ⟨rfl, not_not.mp hrelation, key_of_lookup hfind⟩

theorem loadLocalTransactionInventoryFromOpenDevice_ok
    (h : loadLocalTransactionInventoryFromOpenDevice device = .ok inventory) :
    inventory = device.inventory := by
  rw [loadLocalTransactionInventoryFromOpenDevice, bind_eq_ok_iff] at h
  obtain ⟨_, _, h⟩ := h
  cases h
  rfl

/-- What a successful mutation did to its page: no version of the row was
another open transaction's, and the page got one version more. -/
structure Appended (device device' : CowDevice κ) (request : PhysicalMgaCowMutation κ)
    (writer : TransactionInventoryEntry) (base : BaseRowSelection κ) : Prop where
  selected : selectBaseRow (device.pageRows request.pageNumber) device.inventory
    writer request.rowUuid = .ok base
  sequence : (base.maxRowVersion + 1) % (u64Max + 1) ≠ 0
  inventory : device'.inventory = device.inventory
  path : device'.path = device.path
  relation : ∃ body, lookup RowDataPageBody.pageNumber request.pageNumber
    device'.rowPages = some body ∧ body.relationUuid = request.relationUuid
  stored : (device'.pageRows request.pageNumber).map RowDataRecord.stored =
    (device.pageRows request.pageNumber).map RowDataRecord.stored ++ [request.version writer.localId
        ((base.maxRowVersion + 1) % (u64Max + 1))]
  valid : ∀ row ∈ device'.pageRows request.pageNumber, validRowIdentity row = true

section

variable
  (h : performMutation cellBytes device active execution request issued = .ok (device', result))
include h

theorem performMutation_written :
    ∃ rowPage base planned written, readRowDataPage device request.relationUuid request.pageNumber
        request.predecessorPageNumber = .ok rowPage ∧
      selectBaseRow rowPage.rows device.inventory active request.rowUuid = .ok base ∧
      appendVersion cellBytes device.pageSize active execution (advancePageGeneration rowPage)
        base request issued = .ok (planned, result.rowVersion, written) ∧
      device' = device.putPage written ∧
      result.inventory = device.inventory ∧ result.transactionEntry = active := by
  rw [performMutation, bind_eq_ok_iff] at h
  obtain ⟨rowPage, hread, h⟩ := h
  simp only [cowError, guard_eq_ok_iff, bind_eq_ok_iff] at h
  obtain ⟨_, _, _, base, hbase, ⟨planned, newRow, written⟩, happend, h⟩ := h
  cases h
  exact ⟨rowPage, base, planned, written, hread, hbase, happend, rfl, rfl, rfl⟩

theorem performMutation_ok : ∃ base, Appended device device' request active base := by
  obtain ⟨rowPage, base, _, written, hread, hbase, happend, rfl, -⟩ := performMutation_written h
  obtain ⟨hrows, hrelation, hnumber⟩ := readRowDataPage_ok hread
  obtain ⟨hsequence, hrel, hnum, hstored, hvalid⟩ := appendVersion_ok happend
  have hwritten : written.pageNumber = request.pageNumber := hnum.trans hnumber
  have hlookup := lookup_putPage device written
  rw [hwritten] at hlookup
  have hafter : (device.putPage written).pageRows request.pageNumber =
      written.rows := by
    rw [CowDevice.pageRows, hlookup]
  rw [hrows] at hbase
  refine ⟨base, hbase, hsequence, rfl, rfl, ⟨written, hlookup, hrel.trans hrelation⟩, ?_, ?_⟩
  · rw [hafter, hstored, ← hrows]
    rfl
  · rw [hafter]
    exact hvalid

end

/-- The inventory a call works on and the transaction it writes for, as found and
as the write may see it: the one the request names, or one the call begins. -/
def Opened (before : LocalTransactionInventory) (request : PhysicalMgaCowMutation κ)
    (inventory : LocalTransactionInventory) (writer execution : TransactionInventoryEntry) : Prop :=
  if request.useExistingTransaction then
    inventory = before ∧ admitExistingTransaction before request = .ok (writer, execution)
  else
    ∃ begun, beginLocalTransaction before request.transactionUuid
        request.beginUnixEpochMillis = .ok begun ∧
      inventory = begun.inventory ∧ writer = begun.entry ∧ execution = begun.entry

theorem persist_ok
    (h : persistLocalTransactionInventoryToOpenDevice device inventory = .ok device') :
    device' = { device with inventory := inventory } := by
  rw [persistLocalTransactionInventoryToOpenDevice, bind_eq_ok_iff] at h
  obtain ⟨_, _, h⟩ := h
  obtain ⟨_, h⟩ := guard_eq_ok_iff.mp h
  split at h
  · cases h
  obtain ⟨_, _, h⟩ := bind_eq_ok_iff.mp h
  cases h
  rfl

/-- A mutation that succeeds was performed for a transaction it found or began. -/
theorem write_performed (h : writePhysicalMgaCowUnpublishedMutationToOpenDevice cellBytes device
      request issued millis = (device', .ok result)) :
    validateMutationRequest request device.path = none ∧ ∃ inventory writer execution,
      Opened device.inventory request inventory writer execution ∧
      performMutation cellBytes { device with inventory } writer execution request issued =
        .ok (device', result) := by
  revert h
  fun_cases writePhysicalMgaCowUnpublishedMutationToOpenDevice cellBytes device request issued
    millis with
  | case5 hvalid inventory hload hexisting writer execution hentries _ _ hperform =>
    rintro ⟨⟩
    obtain rfl := loadLocalTransactionInventoryFromOpenDevice_ok hload
    refine ⟨hvalid, _, writer, execution, ?_, hperform⟩
    rw [Opened, if_pos hexisting]
    exact ⟨rfl, hentries⟩
  | case6 hvalid inventory hload hexisting =>
    intro h
    obtain rfl := loadLocalTransactionInventoryFromOpenDevice_ok hload
    rw [writeOwned] at h
    split at h
    · cases h
    next begun hbegin =>
    dsimp only at h
    split at h
    · split at h <;> cases h
    next hpersist =>
    obtain rfl := persist_ok hpersist
    split at h
    · split at h <;> cases h
    next hperform =>
    cases h
    refine ⟨hvalid, _, _, _, ?_, hperform⟩
    rw [Opened, if_neg hexisting]
    exact ⟨begun, hbegin, rfl, rfl, rfl⟩
  | _ => exact nofun

theorem write_applied (h : (CowStep.write request issued millis).apply cellBytes device =
      .ok device') :
    ∃ result, writePhysicalMgaCowUnpublishedMutationToOpenDevice cellBytes device request issued
      millis = (device', .ok result) := by
  rw [CowStep.apply] at h
  split at h
  next hwrite =>
    cases h
    exact ⟨_, hwrite⟩
  · cases h

/-- A mutation in an existing transaction needs that to be open for writing. -/
theorem write_ok (hexisting : request.useExistingTransaction = true)
    (h : (CowStep.write request issued millis).apply cellBytes device = .ok device') :
    validateMutationRequest request device.path = none ∧
    ∃ writer ∈ device.inventory.entries, ∃ base,
      writer.localId = request.existingLocalTransactionId ∧
      writer.uuid = request.transactionUuid.value ∧ writer.state = .active ∧
      Appended device device' request writer base := by
  obtain ⟨_, hwrite⟩ := write_applied h
  obtain ⟨hvalid, inventory, writer, execution, hopened, hperform⟩ := write_performed hwrite
  rw [Opened, if_pos hexisting] at hopened
  obtain ⟨rfl, hentries⟩ := hopened
  obtain ⟨hmem, hid, huuid, hactive⟩ := admitExistingTransaction_ok hentries
  obtain ⟨base, happended⟩ := performMutation_ok hperform
  exact ⟨hvalid, writer, hmem, base, hid, huuid, hactive, happended⟩

end

/-! ## The invariant -/

section

variable {versions : List (StoredVersion κ)} {v : StoredVersion κ}

theorem Lineage.append (h : Lineage inventory versions)
    (hwf : WellFormed inventory) (hwriter : writer ∈ inventory.entries)
    (hby : CreatedBy v writer) (hactive : writer.state = .active)
    (hpayload : v.deleted = false → v.cells ≠ []) (hbounded : v.rowVersion ≤ u64Max)
    (habove : ∀ w ∈ versions, w.rowUuid = v.rowUuid → w.rowVersion < v.rowVersion)
    (hsettled : ∀ w ∈ versions, w.rowUuid = v.rowUuid →
      ∀ e ∈ inventory.entries, CreatedBy w e → Settled writer e) :
    Lineage inventory (versions ++ [v]) := by
  refine ⟨?_, ?_, ?_, ?_, ?_⟩
  · exact forall_mem_append.mpr ⟨h.payload, forall_mem_singleton.mpr hpayload⟩
  · exact forall_mem_append.mpr ⟨h.bounded, forall_mem_singleton.mpr hbounded⟩
  · rw [pairwise_append]
    refine ⟨h.ascending, pairwise_singleton _ _, ?_⟩
    intro w hw x hx
    rw [mem_singleton.mp hx]
    exact habove w hw
  · exact forall_mem_append.mpr ⟨h.created, forall_mem_singleton.mpr ⟨writer, hwriter, hby⟩⟩
  · rw [pairwise_append]
    refine ⟨h.ordered, pairwise_singleton _ _, ?_⟩
    intro w hw x hx hrow e he y hy hwe hxy
    rw [mem_singleton.mp hx] at hrow hxy
    obtain rfl : y = writer := hwf.entry_unique hy hwriter (hxy.id.trans hby.id.symm)
    rcases hsettled w hw hrow e he hwe with hr | hown | hcom
    · exact .inl hr
    · exact .inr (.inl hown)
    · refine .inr (.inr ⟨hcom, ?_⟩)
      intro hc
      rw [hactive] at hc
      cases hc

/-- One entry before and after a begin or a finalization. -/
structure Finalizes (nextCommit : Nat) (e e' : TransactionInventoryEntry) : Prop where
  identity : e'.identity = e.identity
  outcome : e' = e ∨ (isTerminalTransactionState e.state = false ∧ (e'.state = .rolledBack ∨
      (e'.state = .committed ∧ e'.commitSequence = nextCommit)))

theorem Finalizes.eq_of_terminal (h : Finalizes n e e')
    (hs : isTerminalTransactionState e.state = true) : e' = e := by
  rcases h.outcome with heq | ⟨hlive, _⟩
  · exact heq
  · rw [hs] at hlive
    cases hlive

theorem Finalizes.localId (h : Finalizes n e e') : e'.localId = e.localId := by
  rw [TransactionInventoryEntry.localId, h.identity]
  rfl

structure Settles (before after : LocalTransactionInventory) : Prop where
  wellFormed : WellFormed after
  kept : ∀ e ∈ before.entries, ∃ e' ∈ after.entries, Finalizes before.nextCommitSequence e e'
  localNode : (∀ e ∈ before.entries, e.identity.scope = .localNode) →
    ∀ e ∈ after.entries, e.identity.scope = .localNode

theorem Precedes.settle (h : Precedes x y)
    (hx : Finalizes n x x') (hy : Finalizes n y y') (hlt : x.commitSequence < n) :
    Precedes x' y' := by
  rcases h with hr | hsame | ⟨hcom, hseq⟩
  · rw [hx.eq_of_terminal (by rw [hr]; rfl)]
    exact .inl hr
  · exact .inr (.inl (by rw [hx.localId, hy.localId, hsame]))
  · rw [hx.eq_of_terminal (by rw [hcom]; rfl)]
    refine .inr (.inr ⟨hcom, ?_⟩)
    intro hycom
    rcases hy.outcome with heq | ⟨_, hr | ⟨_, hfresh⟩⟩
    · rw [heq] at hycom ⊢
      exact hseq hycom
    · rw [hr] at hycom
      cases hycom
    · rw [hfresh]
      exact hlt

theorem CreatedBy.settle (h : CreatedBy v e) (hf : Finalizes n e e') : CreatedBy v e' := by
  refine ⟨hf.localId.trans h.id, ?_, ?_⟩
  · rw [hf.identity]
    exact h.uuid
  · rcases hf.outcome with heq | ⟨_, hr | ⟨hc, _⟩⟩
    · rw [heq]
      exact h.state
    · exact .inr (.inr hr)
    · exact .inr (.inl hc)

theorem Lineage.settle (h : Lineage before versions) (hwf : WellFormed before)
    (hs : Settles before after) : Lineage after versions := by
  refine ⟨h.payload, h.bounded, h.ascending, ?_, ?_⟩
  · intro v hv
    obtain ⟨e, he, hby⟩ := h.created v hv
    obtain ⟨e', he', hf⟩ := hs.kept e he
    exact ⟨e', he', hby.settle hf⟩
  · refine h.ordered.imp_of_mem ?_
    intro a b ha hb hab hrow x' hx' y' hy' hax hby
    obtain ⟨x, hx, hxa⟩ := h.created a ha
    obtain ⟨y, hy, hyb⟩ := h.created b hb
    obtain ⟨x'', hx'', hfx⟩ := hs.kept x hx
    obtain ⟨y'', hy'', hfy⟩ := hs.kept y hy
    obtain rfl : x'' = x' := hs.wellFormed.entry_unique hx'' hx'
      ((hxa.settle hfx).id.trans hax.id.symm)
    obtain rfl : y'' = y' := hs.wellFormed.entry_unique hy'' hy'
      ((hyb.settle hfy).id.trans hby.id.symm)
    exact (hab hrow x hx y hy hxa hyb).settle hfx hfy
      ((hwf.entry x hx).commitSequence_lt hwf.nextCommit_ne)

end

end ScratchBird.Storage
