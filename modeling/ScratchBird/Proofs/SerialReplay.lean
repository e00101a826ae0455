import ScratchBird.Proofs.CowStore
import ScratchBird.Proofs.Retention
import Mathlib.Data.List.Dedup

/-!
# Reading is replaying

The purpose of the row store is that a reader sees a serial execution: the
mutations of the transactions its snapshot admits, one transaction after the
other in the order of their commits, and then its own. `serialHistory` is that
execution, taken from the log of the calls and not from the page, and the file
shows that a read returns the table replaying it gives.

The page and the log agree by the invariant of runs. What is left is an argument
about one row at a time. The page lists the row's admitted versions in the order
in which the serial history lists the mutations behind them, because `Lineage`
puts the versions of different committed transactions in commit order and the
reader's own after those. So the newest admitted version, which the read stops
at, is the last mutation of the row in the replay.
-/

namespace ScratchBird.Storage

open Lib Mga
open List hiding lookup

variable {κ : Type} {readOnly stable : Bool} {rowUuid relation : TypedUuid}
  {millis num reader boundary pageNumber sequence largest n : Nat}
  {after inventory : LocalTransactionInventory} {path : String}
  {writer e execution e' x y : TransactionInventoryEntry} {snapshot : VisibilitySnapshot}
  {r : TransactionInventoryEntry} {uuid : TypedUuid} {request : PhysicalMgaCowMutation κ}
  {row : RowDataRecord κ}

/-- A mutation as a log has it: who made it, on which row, and the cells it left
there, if any. -/
structure RowMutation (κ : Type) where
  creator : Nat
  rowUuid : TypedUuid
  left : Option (List κ)

def PhysicalMgaCowMutation.logged (request : PhysicalMgaCowMutation κ) : RowMutation κ where
  creator := request.existingLocalTransactionId
  rowUuid := request.rowUuid
  left :=
    match request.kind with
    | .insert | .update => some request.cells
    | .deleteRow => none

def CowStep.logged : CowStep κ → Option (RowMutation κ)
  | .write request _ _ => some request.logged
  | .begin .. | .finalize .. => none

def mutationLog (steps : List (CowStep κ)) : List (RowMutation κ) := steps.filterMap CowStep.logged

/-- The transactions a boundary admits beside the reader, in commit order. -/
def admittedBefore (inventory : LocalTransactionInventory)
    (reader commitBoundary : Nat) : List TransactionInventoryEntry :=
  (inventory.entries.filter fun e => decide (e.localId ≠ reader) &&
    hasCommittedInventoryOutcome e &&
    decide (e.commitSequence ≤ commitBoundary)).insertionSort
      fun a b => a.commitSequence ≤ b.commitSequence

/-- The numbers of the transactions a reader's snapshot admits, in the order of
the serial history. -/
def admittedIds (inventory : LocalTransactionInventory) (reader commitBoundary : Nat) : List Nat :=
  (admittedBefore inventory reader commitBoundary).map (·.localId) ++ [reader]

/-- The admitted transactions' mutations one transaction after the other, and
the reader's own after all of them. -/
def serialHistory (inventory : LocalTransactionInventory)
    (reader commitBoundary : Nat) (log : List (RowMutation κ)) : List (RowMutation κ) :=
  (admittedIds inventory reader commitBoundary).flatMap fun creator =>
    log.filter fun m => decide (m.creator = creator)

/-- The table a list of mutations leaves. -/
def tableAfter (history : List (RowMutation κ)) : TypedUuid → Option (List κ) :=
  replay RowMutation.rowUuid RowMutation.left history

/-- A run on one row page: every mutation is on that page, in a transaction that
was begun before. -/
def CowStep.OnPage (relation : TypedUuid) (pageNumber : Nat) : CowStep κ → Prop
  | .write request _ _ => request.relationUuid = relation ∧
      request.pageNumber = pageNumber ∧ request.useExistingTransaction = true
  | .begin .. | .finalize .. => True

instance (relation : TypedUuid) (pageNumber : Nat) (step : CowStep κ) :
    Decidable (step.OnPage relation pageNumber) :=
  match step with
  | .write request _ _ =>
    inferInstanceAs (Decidable (request.relationUuid = relation ∧
      request.pageNumber = pageNumber ∧ request.useExistingTransaction = true))
  | .begin .. => inferInstanceAs (Decidable True)
  | .finalize .. => inferInstanceAs (Decidable True)

/-! ## The page follows the log -/

def StoredVersion.logged (v : StoredVersion κ) : RowMutation κ :=
  ⟨v.localTransactionId, v.rowUuid, if v.deleted then none else some v.cells⟩

structure PageFollows (relation : TypedUuid) (pageNumber : Nat)
    (device : CowDevice κ) (log : List (RowMutation κ)) : Prop where
  wellFormed : WellFormed device.inventory
  localNode : ∀ e ∈ device.inventory.entries, e.identity.scope = .localNode
  relation : ∀ body, lookup RowDataPageBody.pageNumber pageNumber
    device.rowPages = some body → body.relationUuid = relation
  valid : ∀ row ∈ device.pageRows pageNumber, validRowIdentity row = true
  lineage : Lineage device.inventory ((device.pageRows pageNumber).map RowDataRecord.stored)
  logged : ((device.pageRows pageNumber).map RowDataRecord.stored).map StoredVersion.logged = log

section

variable {cellBytes : κ → Except DiagnosticRecord Nat} {device device' : CowDevice κ}
  {log : List (RowMutation κ)} {r : TransactionInventoryResult} {rows : List (RowDataRecord κ)}
  {base : BaseRowSelection κ}

/-- A begin adds its entry behind the others. -/
theorem settles_append (hafter : WellFormed after)
    (hentries : after.entries = inventory.entries ++ [e]) (hscope : e.identity.scope = .localNode) :
    Settles inventory after := by
  refine ⟨hafter, ?_, ?_⟩
  · intro x hx
    rw [hentries]
    exact ⟨x, mem_append_left _ hx, rfl, .inl rfl⟩
  · intro hlocal
    rw [hentries]
    exact forall_mem_append.mpr ⟨hlocal, forall_mem_singleton.mpr hscope⟩

theorem settles_begin (h : beginWithIsolation inventory readOnly stable uuid millis = .ok r) :
    Settles inventory r.inventory := by
  have hwf := (evolves_beginWithIsolation h).wfAfter
  obtain ⟨first, begun, hbegin, hinv⟩ := beginWithIsolation_ok h
  obtain ⟨_, _, _, _, _, hentry, _⟩ := beginLocalTransactionWithState_ok hbegin
  refine settles_append hwf (by rw [hinv]) ?_
  rw [hentry]

/-- Whichever way a call got its transaction, that is open in the inventory. -/
theorem Opened.settles (h : Opened inventory request after writer execution)
    (hwf : WellFormed inventory) :
    Settles inventory after ∧ writer ∈ after.entries ∧
      writer.uuid = request.transactionUuid.value ∧ writer.state = .active := by
  rw [Opened] at h
  split at h
  · obtain ⟨rfl, hentries⟩ := h
    obtain ⟨hmem, -, huuid, hactive⟩ := admitExistingTransaction_ok hentries
    exact ⟨⟨hwf, fun e he => ⟨e, he, rfl, .inl rfl⟩, id⟩, hmem, huuid, hactive⟩
  · obtain ⟨begun, hbegin, rfl, rfl, -⟩ := h
    have hafter := (evolves_beginLocalTransactionWithState hbegin).wfAfter
    obtain ⟨-, -, -, -, -, hentry, hinv⟩ := beginLocalTransactionWithState_ok hbegin
    have hentries : begun.inventory.entries = inventory.entries ++ [begun.entry] := by rw [hinv]
    refine ⟨settles_append hafter hentries (by rw [hentry]), ?_, ?_, ?_⟩
    · rw [hentries]
      exact mem_append_right _ (mem_singleton.mpr rfl)
    · rw [hentry]
      rfl
    · rw [hentry]

/-- One entry finalized in place. -/
theorem settles_putEntry (hwf : WellFormed inventory)
    (hafter : WellFormed after) (hentries : after.entries = (putEntry inventory e').entries)
    (hfind : findEntry inventory num = some e) (hf : Finalizes inventory.nextCommitSequence e e') :
    Settles inventory after := by
  obtain ⟨he, _⟩ := findEntry_mem hfind
  have hmem : ∀ x, x ∈ after.entries ↔ _ := fun _ => hentries ▸ mem_putEntry_iff hwf he hf.localId
  refine ⟨hafter, ?_, ?_⟩
  · intro x hx
    by_cases hid : x.localId = e.localId
    · obtain rfl : x = e := hwf.entry_unique hx he hid
      exact ⟨e', (hmem e').mpr (.inr rfl), hf⟩
    · exact ⟨x, (hmem x).mpr (.inl ⟨hx, hid⟩), rfl, .inl rfl⟩
  · intro hlocal x hx
    rcases (hmem x).mp hx with ⟨hx, _⟩ | rfl
    · exact hlocal x hx
    · rw [hf.identity]
      exact hlocal e he

theorem settles_commit (hwf : WellFormed inventory)
    (h : commitLocalTransaction inventory num millis = .ok r) : Settles inventory r.inventory := by
  have hafter := (evolves_commitLocalTransaction hwf h).wfAfter
  obtain ⟨e, hfind, hlive, _, _, hentry, hinv⟩ := commitLocalTransaction_ok h
  refine settles_putEntry hwf hafter (by rw [hinv]) hfind ?_
  rw [hentry]
  exact ⟨rfl, .inr ⟨hlive, .inr ⟨rfl, rfl⟩⟩⟩

theorem settles_rollback (hwf : WellFormed inventory)
    (h : rollbackLocalTransaction inventory num millis = .ok r) :
    Settles inventory r.inventory := by
  have hafter := (evolves_rollbackLocalTransaction hwf h).wfAfter
  obtain ⟨e, hfind, hedge, hentry, hinv⟩ := rollbackLocalTransaction_ok h
  refine settles_putEntry hwf hafter (by rw [hinv]) hfind ?_
  rw [hentry]
  exact ⟨rfl, .inr ⟨not_terminal_of_edge hedge nofun, .inl rfl⟩⟩

theorem settles_of_begin (h : (CowStep.begin readOnly stable uuid millis).apply cellBytes device =
      .ok device') :
    ∃ after, device' = { device with inventory := after } ∧ Settles device.inventory after := by
  rw [CowStep.apply, bind_eq_ok_iff] at h
  obtain ⟨inventory, hload, h⟩ := h
  obtain rfl := loadLocalTransactionInventoryFromOpenDevice_ok hload
  obtain ⟨begun, hbegun, h⟩ := bind_eq_ok_iff.mp h
  exact ⟨_, persist_ok h, settles_begin hbegun⟩

theorem settles_of_finalize {request : PhysicalMgaCowFinalization}
    (hwf : WellFormed device.inventory)
    (h : (CowStep.finalize request).apply cellBytes device = .ok device') :
    ∃ after, device' = { device with inventory := after } ∧ Settles device.inventory after := by
  rw [CowStep.apply, map_eq_ok_iff] at h
  obtain ⟨⟨after, entry⟩, h, rfl⟩ := h
  rw [finalizePhysicalMgaCowTransactionToOpenDevice] at h
  split at h
  · cases h
  obtain ⟨inventory, hload, h⟩ := bind_eq_ok_iff.mp h
  obtain rfl := loadLocalTransactionInventoryFromOpenDevice_ok hload
  split at h
  · cases h
  obtain ⟨_, h⟩ := guard_eq_ok_iff.mp h
  obtain ⟨finalized, hfinalized, h⟩ := bind_eq_ok_iff.mp h
  obtain ⟨persisted, hpersisted, h⟩ := bind_eq_ok_iff.mp h
  cases h
  refine ⟨_, persist_ok hpersisted, ?_⟩
  rw [finalizeEntry] at hfinalized
  split at hfinalized
  · exact settles_commit hwf hfinalized
  · exact settles_rollback hwf hfinalized

/-- Only the inventory moved. -/
theorem PageFollows.settle (h : PageFollows relation pageNumber device log)
    (hs : Settles device.inventory after) :
    PageFollows relation pageNumber { device with inventory := after } log :=
  ⟨hs.wellFormed, hs.localNode h.localNode, h.relation, h.valid,
    h.lineage.settle h.wellFormed hs, h.logged⟩

theorem validateMutationRequest_ok (h : validateMutationRequest request path = none) :
    request.transactionUuid.kind = .transaction ∧
      (request.kind ≠ .deleteRow → request.cells ≠ []) := by
  rw [validateMutationRequest] at h
  split at h
  · cases h
  simp only [guard_eq_none_iff] at h
  obtain ⟨_, htransaction, _, _, hpayload, _⟩ := h
  rw [not_not, isTypedEngineIdentity] at htransaction
  simp only [Bool.and_eq_true, beq_iff_eq] at htransaction
  refine ⟨htransaction.1.1, fun hkind hcells => ?_⟩
  refine hpayload ⟨?_, by rw [hcells]; rfl⟩
  cases hk : request.kind with
  | insert => exact .inl rfl
  | update => exact .inr rfl
  | deleteRow => exact absurd hk hkind

/-- The version a mutation stores is the mutation the log has. -/
theorem version_logged (hnum : num = request.existingLocalTransactionId) :
    (request.version num sequence).logged = request.logged := by
  rw [hnum, PhysicalMgaCowMutation.version, PhysicalMgaCowMutation.logged]
  cases hk : request.kind <;> rfl

theorem sequence_eq (hle : largest ≤ u64Max)
    (hne : (largest + 1) % (u64Max + 1) ≠ 0) : (largest + 1) % (u64Max + 1) = largest + 1 := by
  by_cases h : largest = u64Max
  · rw [h] at hne
    exact absurd rfl hne
  · exact Nat.mod_eq_of_lt (by omega)

theorem maxRowVersion_le (h : ∀ row ∈ rows, row.rowVersion ≤ n) :
    maxRowVersion rows rowUuid ≤ n := by
  by_contra hlt
  have hle : n + 1 ≤ maxRowVersion rows rowUuid := by omega
  rcases le_greatestOf_iff.mp hle with hz | ⟨row, hrow, _, hbig⟩
  · omega
  · have := h row hrow
    omega

theorem le_maxRowVersion (hrow : row ∈ rows)
    (huuid : row.rowUuid = rowUuid) : row.rowVersion ≤ maxRowVersion rows rowUuid :=
  le_greatestOf_iff.mpr (.inr ⟨row, hrow, by simpa using huuid, Nat.le_refl _⟩)

/-- The version number a mutation takes is above those the row has. -/
theorem lt_next_rowVersion (hbounded : ∀ row ∈ rows, row.rowVersion ≤ u64Max)
    (h : selectBaseRow rows inventory writer rowUuid = .ok base)
    (hne : (base.maxRowVersion + 1) % (u64Max + 1) ≠ 0) :
    ∀ row ∈ rows, row.rowUuid = rowUuid →
      row.rowVersion < (base.maxRowVersion + 1) % (u64Max + 1) := by
  intro row hrow huuid
  rw [maxRowVersion_of_selectBaseRow h] at hne ⊢
  rw [sequence_eq (maxRowVersion_le hbounded) hne]
  exact Nat.lt_succ_of_le (le_maxRowVersion hrow huuid)

theorem Appended.lineage (happended : Appended device device' request writer base)
    (hwf : WellFormed device.inventory)
    (h : Lineage device.inventory ((device.pageRows request.pageNumber).map RowDataRecord.stored))
    (hvalid : ∀ row ∈ device.pageRows request.pageNumber, validRowIdentity row = true)
    (hrequest : validateMutationRequest request path = none)
    (hwriter : writer ∈ device.inventory.entries)
    (huuid : writer.uuid = request.transactionUuid.value) (hactive : writer.state = .active) :
    Lineage device.inventory ((device'.pageRows request.pageNumber).map RowDataRecord.stored) := by
  have hby : CreatedBy (request.version writer.localId
      ((base.maxRowVersion + 1) % (u64Max + 1))) writer := by
    refine ⟨rfl, ?_, .inl hactive⟩
    have hkind : writer.identity.transactionUuid.kind = .transaction := by
      have hvalid := (hwf.entry writer hwriter).identity
      rw [TransactionIdentity.valid] at hvalid
      simp only [Bool.and_eq_true, beq_iff_eq] at hvalid
      exact hvalid.1.1.2
    calc writer.identity.transactionUuid = ⟨.transaction, writer.uuid⟩ := by
          rw [← hkind]
          rfl
      _ = request.transactionUuid := by
        rw [huuid, ← (validateMutationRequest_ok hrequest).1]
  rw [happended.stored]
  refine h.append hwf hwriter hby hactive ?_ ?_ ?_ ?_
  · intro hdeleted
    have hkind : request.kind ≠ .deleteRow := by
      intro hk
      have hflag : (request.kind == .deleteRow) = false := hdeleted
      rw [hk] at hflag
      cases hflag
    rw [PhysicalMgaCowMutation.version]
    simp only [hkind]
    exact (validateMutationRequest_ok hrequest).2 hkind
  · have := Nat.mod_lt (base.maxRowVersion + 1) (Nat.succ_pos u64Max)
    exact Nat.le_of_lt_succ this
  · intro w hw hrow
    obtain ⟨row, hmem, rfl⟩ := mem_map.mp hw
    exact lt_next_rowVersion (fun row hrow => h.bounded _ (mem_map_of_mem hrow))
      happended.selected happended.sequence row hmem hrow
  · exact settled_of_selectBaseRow hwf h hvalid happended.selected

theorem PageFollows.write {issued : Except DiagnosticRecord TypedUuid}
    (h : PageFollows relation pageNumber device log)
    (hpage : (CowStep.write request issued millis).OnPage relation pageNumber)
    (hstep : (CowStep.write request issued millis).apply cellBytes device = .ok device') :
    PageFollows relation pageNumber device' (log ++ [request.logged]) := by
  obtain ⟨hrelation, rfl, hexisting⟩ := hpage
  obtain ⟨hrequest, writer, hwriter, base, hid, huuid, hactive, happended⟩ :=
    write_ok hexisting hstep
  refine ⟨?_, ?_, ?_, happended.valid, ?_, ?_⟩
  · rw [happended.inventory]
    exact h.wellFormed
  · rw [happended.inventory]
    exact h.localNode
  · intro body hbody
    obtain ⟨written, hwritten, hrel⟩ := happended.relation
    cases hwritten.symm.trans hbody
    exact hrel.trans hrelation
  · rw [happended.inventory]
    exact happended.lineage h.wellFormed h.lineage h.valid hrequest hwriter huuid hactive
  · rw [happended.stored, map_append, h.logged, map_singleton, version_logged hid]

theorem pageFollows_of_run {steps : List (CowStep κ)}
    (h : PageFollows relation pageNumber device log)
    (hsteps : ∀ step ∈ steps, step.OnPage relation pageNumber)
    (hrun : runCowSteps cellBytes device steps = .ok device') :
    PageFollows relation pageNumber device' (log ++ mutationLog steps) := by
  induction steps generalizing device log with
  | nil =>
    cases hrun
    rw [mutationLog, List.filterMap_nil, append_nil]
    exact h
  | cons step steps ih =>
    rw [runCowSteps, bind_eq_ok_iff] at hrun
    obtain ⟨next, hstep, hrun⟩ := hrun
    have hrest : ∀ step ∈ steps, step.OnPage relation pageNumber := (forall_mem_cons.mp hsteps).2
    cases step with
    | begin readOnly stable uuid millis =>
      obtain ⟨after, rfl, hs⟩ := settles_of_begin hstep
      exact ih (h.settle hs) hrest hrun
    | finalize request =>
      obtain ⟨after, rfl, hs⟩ := settles_of_finalize h.wellFormed hstep
      exact ih (h.settle hs) hrest hrun
    | write request issued millis =>
      have hnext := h.write (hsteps _ mem_cons_self) hstep
      have := ih hnext hrest hrun
      rw [append_assoc] at this
      exact this

end

/-! ## What a read sees -/

section

variable {sees : RowDataRecord κ → Bool}

/-- What the walk over a row's versions asks of each of them. -/
structure Observable (inventory : LocalTransactionInventory)
    (snapshot : VisibilitySnapshot) (sees : RowDataRecord κ → Bool)
    (row : RowDataRecord κ) (e : TransactionInventoryEntry) : Prop where
  creator : lookupLocalTransaction inventory row.localTransactionId = .ok e
  answered : (observeVersionEffectVisibility (metadataForRow row e)
    snapshot).outcome.filter (fun _ =>
      (observeVersionEffectVisibility (metadataForRow row e)
        snapshot).decision != .waitForTransaction &&
      (observeVersionEffectVisibility (metadataForRow row e)
        snapshot).decision != .requiresRecovery) = none
  visible : (observeVersionEffectVisibility (metadataForRow row e)
    snapshot).decision = .visible ↔ sees row = true
  undone : inventoryVisibilityState e = .rolledBack ∨
    inventoryVisibilityState e = .failedTerminal → sees row = false

/-- The version a read returns of a row: the first it sees, unless that one is a
delete marker. -/
def shownOf (sees : RowDataRecord κ → Bool) (versions : List (RowDataRecord κ)) :
    Option (RowDataRecord κ) := (versions.find? sees).filter fun row => !row.deleted

theorem skip_visibleRows (result : PhysicalMgaCowReadResult κ)
    (observed : PhysicalMgaCowReadRow κ) :
    (result.skip observed).visibleRows = result.visibleRows := by
  rw [PhysicalMgaCowReadResult.skip]
  split
  · rfl
  · split <;> rfl

theorem readVersions_ok {versions : List (RowDataRecord κ)}
    (h : ∀ row ∈ versions, ∃ e, Observable inventory snapshot sees row e)
    (result : PhysicalMgaCowReadResult κ) :
    ∃ result', readVersions inventory snapshot result versions = .ok result' ∧ result'.visibleRows =
        result.visibleRows ++ (shownOf sees versions).toList := by
  induction versions generalizing result with
  | nil => exact ⟨result, rfl, (append_nil _).symm⟩
  | cons row rows ih =>
    obtain ⟨e, hrow⟩ := h row mem_cons_self
    have hrest : ∀ row ∈ rows, ∃ e, Observable inventory snapshot sees row e :=
      (forall_mem_cons.mp h).2
    have hskip : sees row = false → shownOf sees (row :: rows) = shownOf sees rows := by
      intro hs
      rw [shownOf, find?_cons_of_neg (by simp [hs])]
      rfl
    have hstop : sees row = true → shownOf sees (row :: rows) =
        if row.deleted then none else some row := by
      intro hs
      rw [shownOf, List.find?_cons_of_pos hs, Option.filter_some]
      cases row.deleted <;> rfl
    rw [readVersions, hrow.creator]
    simp only
    rw [hrow.answered]
    simp only
    split
    · next hundone =>
      rw [hskip (hrow.undone hundone)]
      exact ih hrest _
    split
    · next hdel =>
      rw [hstop (hrow.visible.mp hdel.2), if_pos hdel.1]
      exact ⟨_, rfl, (append_nil _).symm⟩
    split
    · next hdel hvis =>
      rw [hstop (hrow.visible.mp hvis), if_neg (fun hd => hdel ⟨hd, hvis⟩)]
      exact ⟨_, rfl, rfl⟩
    · next hvis =>
      have hs : sees row = false := by
        rw [← Bool.not_eq_true]
        exact fun hs => hvis (hrow.visible.mpr hs)
      rw [hskip hs]
      obtain ⟨result', hread, hrows⟩ := ih hrest (result.skip _)
      refine ⟨result', hread, ?_⟩
      rw [hrows, skip_visibleRows]

theorem readRows_ok {groups : List (List (RowDataRecord κ))}
    (h : ∀ versions ∈ groups, ∀ row ∈ versions, ∃ e, Observable inventory snapshot sees row e)
    (result : PhysicalMgaCowReadResult κ) :
    ∃ result', readRows inventory snapshot result groups = .ok result' ∧ result'.visibleRows =
        result.visibleRows ++ groups.filterMap (shownOf sees) := by
  induction groups generalizing result with
  | nil => exact ⟨result, rfl, (append_nil _).symm⟩
  | cons versions groups ih =>
    obtain ⟨next, hread, hrows⟩ := readVersions_ok (h versions mem_cons_self) result
    obtain ⟨result', hrest, hrows'⟩ := ih (forall_mem_cons.mp h).2 next
    refine ⟨result', ?_, ?_⟩
    · rw [readRows, hread]
      exact hrest
    · rw [hrows', hrows, append_assoc, List.filterMap_cons]
      cases shownOf sees versions <;> rfl

end

/-! ## The snapshot of an open reader -/

section

variable {rows : List (RowDataRecord κ)}

theorem mem_admittedBefore :
    e ∈ admittedBefore inventory reader boundary ↔ e ∈ inventory.entries ∧ e.localId ≠ reader ∧
        hasCommittedInventoryOutcome e = true ∧ e.commitSequence ≤ boundary := by
  rw [admittedBefore, mem_insertionSort, mem_filter]
  simp only [Bool.and_eq_true, decide_eq_true_eq, and_assoc]

theorem mem_admittedIds (hwf : WellFormed inventory) (he : e ∈ inventory.entries) :
    e.localId ∈ admittedIds inventory reader boundary ↔ e.localId = reader ∨
      (hasCommittedInventoryOutcome e = true ∧ e.commitSequence ≤ boundary) := by
  rw [admittedIds, mem_append, mem_map, mem_singleton]
  constructor
  · rintro (⟨x, hx, hid⟩ | hid)
    · obtain ⟨hmem, _, hadmitted⟩ := mem_admittedBefore.mp hx
      rw [hwf.entry_unique hmem he hid] at hadmitted
      exact .inr hadmitted
    · exact .inl hid
  · intro h
    by_cases hid : e.localId = reader
    · exact .inr hid
    · exact .inl ⟨e, mem_admittedBefore.mpr ⟨he, hid, h.resolve_left hid⟩, rfl⟩

/-- Whether a version's creator is admitted. -/
def seenBy (inventory : LocalTransactionInventory)
    (r : TransactionInventoryEntry) (row : RowDataRecord κ) : Bool :=
  decide (row.localTransactionId ∈ admittedIds inventory r.localId (commitBoundaryFor inventory r))

theorem visibilityState_of_open (hwf : WellFormed inventory)
    (hr : r ∈ inventory.entries) (hopen : isActiveForOat r.state = true) :
    inventoryVisibilityState r = r.state := by
  have harch : r.state ≠ .archived := by
    intro hs
    rw [hs] at hopen
    cases hopen
  exact inventoryVisibilityState_of_not_archived harch ((hwf.entry r hr).origin_none harch)

theorem observable_of_lineage (hwf : WellFormed inventory) (hr : r ∈ inventory.entries)
    (hopen : isActiveForOat r.state = true)
    (hlineage : Lineage inventory (rows.map RowDataRecord.stored))
    (hvalid : ∀ row ∈ rows, validRowIdentity row = true) (hrow : row ∈ rows) :
    ∃ e ∈ inventory.entries, CreatedBy row.stored e ∧
      Observable inventory (visibilitySnapshotFor inventory r r.localId)
        (seenBy inventory r) row e := by
  have hstored := mem_map_of_mem (f := RowDataRecord.stored) hrow
  obtain ⟨e, he, hby⟩ := hlineage.created _ hstored
  have hderived := derivedFrom_metadataForRow (hvalid row hrow) (hlineage.payload _ hstored) e
  have hid : e.localId = row.localTransactionId := hby.id
  have hseen : seenBy inventory r row = true ↔ e.localId = r.localId ∨
      (hasCommittedInventoryOutcome e = true ∧
        e.commitSequence ≤ commitBoundaryFor inventory r) := by
    rw [seenBy, decide_eq_true_eq, ← hid]
    exact mem_admittedIds hwf he
  have hsupports : snapshotSupportsState r.state = true := by
    revert hopen
    cases r.state <;> decide
  refine ⟨e, he, hby, ?_, (hderived.evaluate_spec (fun _ => rfl) hwf he).1, ?_, ?_⟩
  · rw [← hid]
    exact lookupLocalTransaction_of_mem hwf he
  · rw [hseen]
    by_cases hown : e.localId = r.localId
    · obtain rfl : e = r := hwf.entry_unique he hr hown
      have hvalidId := (lookupLocalTransaction_ok (lookupLocalTransaction_of_mem hwf he)).2.2
      exact iff_of_true (hderived.own_visible (fun _ => rfl) hwf he hsupports hvalidId) (.inl rfl)
    · rw [or_iff_right hown]
      exact hderived.visible_iff (fun _ => rfl) hwf he hown
  · intro hundone
    rw [← Bool.not_eq_true, hseen]
    rintro (hown | ⟨hc, _⟩)
    · obtain rfl : e = r := hwf.entry_unique he hr hown
      rw [visibilityState_of_open hwf he hopen] at hundone
      rcases hundone with hs | hs <;> rw [hs] at hopen <;>
        cases hopen
    · rw [hasCommittedInventoryOutcome_iff] at hc
      rcases hundone with hs | hs <;> rw [hs] at hc <;>
        cases hc

theorem versionMetadata_of_lineage (hwf : WellFormed inventory) {rows : List (RowDataRecord κ)}
    (hlineage : Lineage inventory (rows.map RowDataRecord.stored))
    (hvalid : ∀ row ∈ rows, validRowIdentity row = true) :
    ∃ metadata, versionMetadata inventory rows = .ok metadata := by
  have hrow : ∀ row ∈ rows, ∃ e, rowCreator inventory row = .ok e ∧
      observeRowVersionMetadata (metadataForRow row e) = none := by
    intro row hrow
    have hstored := mem_map_of_mem (f := RowDataRecord.stored) hrow
    obtain ⟨e, he, hby⟩ := hlineage.created _ hstored
    have hid : e.localId = row.localTransactionId := hby.id
    have huuid : e.identity.transactionUuid = row.transactionUuid := hby.uuid
    refine ⟨e, ?_, (derivedFrom_metadataForRow (hvalid row hrow)
      (hlineage.payload _ hstored) e).accepted hwf he⟩
    rw [rowCreator, ← hid, lookupLocalTransaction_of_mem hwf he]
    exact if_neg (not_not.mpr huuid)
  clear hlineage hvalid
  induction rows with
  | nil => exact ⟨[], rfl⟩
  | cons row rows ih =>
    obtain ⟨e, hcreator, haccepted⟩ := hrow row mem_cons_self
    obtain ⟨metadata, hrest⟩ := ih (forall_mem_cons.mp hrow).2
    refine ⟨metadataForRow row e :: metadata, ?_⟩
    rw [versionMetadata, hcreator]
    simp only [bind, Except.bind, haccepted, hrest]
    rfl

/-! ## One row in page order and in serial order -/

/-- The place of a transaction in the serial history. -/
def serialRank (inventory : LocalTransactionInventory)
    (reader commitBoundary localId : Nat) : Nat :=
  if localId = reader then commitBoundary + 1
  else
    match findEntry inventory localId with
    | some e => e.commitSequence
    | none => 0

section

variable (hwf : WellFormed inventory)
include hwf

theorem serialRank_of_mem (he : e ∈ inventory.entries) (hne : e.localId ≠ reader) :
    serialRank inventory reader boundary e.localId = e.commitSequence := by
  have hfind : findEntry inventory e.localId = some e :=
    (lookup_eq_some_iff hwf.localIds).mpr ⟨he, rfl⟩
  rw [serialRank, if_neg hne, hfind]

theorem admittedIds_pairwise (reader boundary : Nat) :
    (admittedIds inventory reader boundary).Pairwise fun c d =>
      serialRank inventory reader boundary c < serialRank inventory reader boundary d := by
  have hnodup : (admittedBefore inventory reader boundary).Nodup :=
    (perm_insertionSort _ _).nodup_iff.mpr ((List.Nodup.of_map _ hwf.localIds).filter _)
  have hsorted : (admittedBefore inventory reader boundary).Pairwise
      fun a b => a.commitSequence ≤ b.commitSequence := by
    exact List.pairwise_insertionSort _ _
  rw [admittedIds, pairwise_append]
  refine ⟨?_, pairwise_singleton _ _, ?_⟩
  · rw [pairwise_map]
    refine (hsorted.and hnodup).imp_of_mem ?_
    intro a b ha hb hab
    obtain ⟨ha, hane, hac, _⟩ := mem_admittedBefore.mp ha
    obtain ⟨hb, hbne, hbc, _⟩ := mem_admittedBefore.mp hb
    rw [serialRank_of_mem hwf ha hane, serialRank_of_mem hwf hb hbne]
    refine Nat.lt_of_le_of_ne hab.1 ?_
    intro heq
    exact hab.2 (hwf.entry_unique ha hb (hwf.commits a ha b hb hac hbc heq))
  · intro c hc d hd
    obtain ⟨a, ha, rfl⟩ := mem_map.mp hc
    obtain ⟨ha, hane, _, hle⟩ := mem_admittedBefore.mp ha
    rw [mem_singleton.mp hd, serialRank_of_mem hwf ha hane, serialRank, if_pos rfl]
    exact Nat.lt_succ_of_le hle

/-- Two admitted versions of a row stand on the page as their creators stand in
the serial history. -/
theorem serialRank_of_precedes (hr : r ∈ inventory.entries)
    (hopen : isActiveForOat r.state = true) (hx : x ∈ inventory.entries)
    (hy : y ∈ inventory.entries) (hyarch : y.state ≠ .archived)
    (hxin : x.localId ∈ admittedIds inventory r.localId boundary)
    (hyin : y.localId ∈ admittedIds inventory r.localId boundary) (h : Precedes x y) :
    x.localId = y.localId ∨ serialRank inventory r.localId boundary x.localId <
        serialRank inventory r.localId boundary y.localId := by
  rw [mem_admittedIds hwf hx] at hxin
  rw [mem_admittedIds hwf hy] at hyin
  have hopen_ne : ∀ s, isActiveForOat s = false → r.state ≠ s := by
    intro s hs heq
    rw [heq, hs] at hopen
    cases hopen
  have hnotreader : ∀ s, isActiveForOat s = false → x.state = s → x.localId ≠ r.localId := by
    intro s hs hxs hid
    rw [hwf.entry_unique hx hr hid] at hxs
    exact hopen_ne s hs hxs
  rcases h with hrolled | hsame | ⟨hcom, hseq⟩
  · have hne := hnotreader _ rfl hrolled
    have harch : x.state ≠ .archived := by
      rw [hrolled]
      decide
    have hc := (hxin.resolve_left hne).1
    rw [hasCommittedInventoryOutcome_iff, inventoryVisibilityState_of_not_archived harch
        ((hwf.entry x hx).origin_none harch), hrolled] at hc
    cases hc
  · exact .inl hsame
  · have hne := hnotreader _ rfl hcom
    rw [serialRank_of_mem hwf hx hne]
    refine .inr ?_
    by_cases hyr : y.localId = r.localId
    · rw [serialRank, if_pos hyr]
      exact Nat.lt_succ_of_le (hxin.resolve_left hne).2
    · rw [serialRank_of_mem hwf hy hyr]
      have hstate := (hwf.entry y hy).state_of_committed (hyin.resolve_left hyr).1
      exact hseq (hstate.resolve_right hyarch)

/-- The serial history restricted to one row is the page restricted to the
admitted versions of that row. -/
theorem serialHistory_row (hr : r ∈ inventory.entries) (hopen : isActiveForOat r.state = true)
    {versions : List (StoredVersion κ)} (hlineage : Lineage inventory versions)
    (boundary : Nat) (rowUuid : TypedUuid) :
    (serialHistory inventory r.localId boundary (versions.map StoredVersion.logged)).filter
          (fun m => decide (m.rowUuid = rowUuid)) =
      (versions.filter fun v => decide (v.rowUuid = rowUuid) &&
        decide (v.localTransactionId ∈ admittedIds inventory r.localId boundary)).map
            StoredVersion.logged := by
  generalize hrow : (versions.filter fun v => decide (v.rowUuid = rowUuid) &&
    decide (v.localTransactionId ∈ admittedIds inventory r.localId boundary)) = row
  have hmem : ∀ v ∈ row, v ∈ versions ∧ v.rowUuid = rowUuid ∧
      v.localTransactionId ∈ admittedIds inventory r.localId boundary := by
    intro v hv
    rw [← hrow, mem_filter, Bool.and_eq_true, decide_eq_true_eq, decide_eq_true_eq] at hv
    exact hv
  have hclasses : ((admittedIds inventory r.localId boundary).flatMap fun c =>
      row.filter fun v => decide (v.localTransactionId = c)) = row := by
    refine flatMap_classes (fun c d => Nat.lt_asymm) (admittedIds_pairwise hwf r.localId boundary)
      (fun v hv => (hmem v hv).2.2) ?_
    rw [← hrow]
    refine (hlineage.ordered.filter _).imp_of_mem ?_
    intro a b ha hb hab
    rw [hrow] at ha hb
    obtain ⟨ha, harow, hain⟩ := hmem a ha
    obtain ⟨hb, hbrow, hbin⟩ := hmem b hb
    obtain ⟨x, hx, hax⟩ := hlineage.created a ha
    obtain ⟨y, hy, hby⟩ := hlineage.created b hb
    rw [← hax.id] at hain ⊢
    rw [← hby.id] at hbin ⊢
    refine serialRank_of_precedes hwf hr hopen hx hy ?_ hain hbin
      (hab (harow.trans hbrow.symm) x hx y hy hax hby)
    rcases hby.state with hs | hs | hs <;> rw [hs] <;> decide
  conv_rhs => rw [← hclasses, List.map_flatMap]
  rw [serialHistory, List.filter_flatMap]
  refine flatMap_congr ?_
  intro c hc
  rw [filter_filter, List.filter_map, ← hrow, filter_filter]
  refine congrArg (List.map StoredVersion.logged) (filter_congr ?_)
  intro v _
  by_cases hvc : v.localTransactionId = c
  · simp [StoredVersion.logged, hvc, hc]
  · simp [StoredVersion.logged, hvc]

end

/-- The newest version of a row whose creator is admitted. -/
def newestSeen (inventory : LocalTransactionInventory)
    (r : TransactionInventoryEntry) (rows : List (RowDataRecord κ))
    (rowUuid : TypedUuid) : Option (RowDataRecord κ) :=
  (rows.filter fun row => decide (row.rowUuid = rowUuid) && seenBy inventory r row).getLast?

theorem tableAfter_eq (hwf : WellFormed inventory)
    (hr : r ∈ inventory.entries) (hopen : isActiveForOat r.state = true)
    (hlineage : Lineage inventory (rows.map RowDataRecord.stored)) (rowUuid : TypedUuid) :
    tableAfter (serialHistory inventory r.localId (commitBoundaryFor inventory r)
        ((rows.map RowDataRecord.stored).map StoredVersion.logged)) rowUuid =
      (newestSeen inventory r rows rowUuid).bind fun row =>
        if row.deleted then none else some row.cells := by
  rw [tableAfter, replay_eq_getLast, serialHistory_row hwf hr hopen hlineage, List.filter_map,
    List.getLast?_map, List.getLast?_map, newestSeen]
  have hsame : (rows.filter ((fun v : StoredVersion κ =>
      decide (v.rowUuid = rowUuid) && decide (v.localTransactionId ∈
        admittedIds inventory r.localId (commitBoundaryFor inventory r))) ∘ RowDataRecord.stored)) =
      rows.filter fun row => decide (row.rowUuid = rowUuid) && seenBy inventory r row := rfl
  rw [hsame]
  cases (rows.filter fun row => decide (row.rowUuid = rowUuid) &&
    seenBy inventory r row).getLast? <;> rfl

section

variable (hascending : rows.Pairwise fun a b => a.rowUuid = b.rowUuid → a.rowVersion < b.rowVersion)
  (hkind : ∀ row ∈ rows, row.rowUuid.kind = .row)
include hascending hkind

theorem byRow_eq :
    byRow rows = ((rows.map (·.rowUuid.value)).dedup.insertionSort uuidBytesLe).map
        fun value => (rows.filter fun row => decide (row.rowUuid = ⟨.row, value⟩)).reverse := by
  refine map_congr_left ?_
  intro value _
  have hsame : (rows.filter fun row => decide (row.rowUuid.value = value)) =
      rows.filter fun row => decide (row.rowUuid = ⟨.row, value⟩) := by
    refine filter_congr ?_
    intro row hrow
    have hk := hkind row hrow
    cases hu : row.rowUuid with
    | mk kind v =>
      rw [hu] at hk
      simp only at hk
      simp [hk]
  rw [hsame]
  refine insertionSort_eq_reverse ((hascending.filter _).imp_of_mem ?_)
  intro a b ha hb hab
  rw [mem_filter, decide_eq_true_eq] at ha hb
  exact hab (ha.2.trans hb.2.symm)

/-- What a read returns, row by row. -/
theorem mem_shown_iff :
    row ∈ (byRow rows).filterMap (shownOf (seenBy inventory r)) ↔
      newestSeen inventory r rows row.rowUuid = some row ∧ row.deleted = false := by
  have hshown : ∀ value, shownOf (seenBy inventory r)
      (rows.filter fun row => decide (row.rowUuid = ⟨.row, value⟩)).reverse =
        (newestSeen inventory r rows ⟨.row, value⟩).filter fun row => !row.deleted := by
    intro value
    rw [shownOf, ← List.getLast?_filter, filter_filter, newestSeen]
    simp only [Bool.and_comm]
  rw [byRow_eq hascending hkind, List.mem_filterMap]
  constructor
  · rintro ⟨versions, hversions, hrow⟩
    obtain ⟨value, _, rfl⟩ := mem_map.mp hversions
    rw [hshown, Option.filter_eq_some_iff] at hrow
    obtain ⟨hnewest, hlive⟩ := hrow
    have hmem := mem_of_getLast? hnewest
    rw [mem_filter, Bool.and_eq_true, decide_eq_true_eq] at hmem
    rw [hmem.2.1]
    exact ⟨hnewest, by simpa using hlive⟩
  · rintro ⟨hnewest, hlive⟩
    have hmem := mem_of_getLast? hnewest
    rw [mem_filter] at hmem
    have huuid : row.rowUuid = ⟨.row, row.rowUuid.value⟩ := by rw [← hkind row hmem.1]
    refine ⟨_, mem_map_of_mem (a := row.rowUuid.value) ?_, ?_⟩
    · rw [mem_insertionSort, List.mem_dedup]
      exact mem_map_of_mem hmem.1
    · rw [hshown, ← huuid, hnewest]
      simpa using hlive

theorem shown_nodup (sees : RowDataRecord κ → Bool) :
    (((byRow rows).filterMap (shownOf sees)).map (·.rowUuid)).Nodup := by
  have hkeys : ((rows.map (·.rowUuid.value)).dedup.insertionSort uuidBytesLe).Nodup :=
    (perm_insertionSort _ _).nodup_iff.mpr (List.nodup_dedup _)
  have hmem : ∀ value row, shownOf sees (rows.filter fun row =>
      decide (row.rowUuid = ⟨.row, value⟩)).reverse = some row → row.rowUuid = ⟨.row, value⟩ := by
    intro value row h
    rw [shownOf, Option.filter_eq_some_iff] at h
    have := List.mem_of_find?_eq_some h.1
    rw [mem_reverse, mem_filter, decide_eq_true_eq] at this
    exact this.2
  rw [byRow_eq hascending hkind, List.filterMap_map, List.Nodup,
    pairwise_map, List.pairwise_filterMap]
  refine hkeys.imp ?_
  intro a b hab x hx y hy heq
  rw [hmem a x hx, hmem b y hy] at heq
  exact hab (TypedUuid.mk.inj heq).2

end

end

/-! ## The read of an open transaction -/

/-- The read a transaction makes with a snapshot of its own. -/
def readRequestOf (relation : TypedUuid) (pageNumber : Nat)
    (r : TransactionInventoryEntry) (snapshot : VisibilitySnapshot) :
    PhysicalMgaCowReadRequest :=
  { relationUuid := relation, pageNumber
    visibilitySnapshot := snapshot
    readerIdentity := r.identity }

section

variable {device : CowDevice κ} {log : List (RowMutation κ)}

theorem loadLocalTransactionInventoryFromOpenDevice_of_wellFormed
    (hwf : WellFormed device.inventory) :
    loadLocalTransactionInventoryFromOpenDevice device = .ok device.inventory := by
  rw [loadLocalTransactionInventoryFromOpenDevice,
    computeLocalTransactionHorizons, validateStructure_eq_none_iff.mpr hwf]
  rfl

theorem validateReader_eq_none (hwf : WellFormed inventory) (hr : r ∈ inventory.entries)
    (hscope : r.identity.scope = .localNode) (hreader : snapshot.readerTransaction = r.localId) :
    validateReader (readRequestOf relation pageNumber r snapshot) = none := by
  have hidentity := (hwf.entry r hr).identity
  rw [TransactionIdentity.valid] at hidentity
  simp only [Bool.and_eq_true, beq_iff_eq] at hidentity
  obtain ⟨⟨⟨hid, hkind⟩, htyped⟩, _⟩ := hidentity
  have hengine : isTypedEngineIdentity r.identity.transactionUuid .transaction =
      true := by
    rw [isTypedEngineIdentity, hkind, htyped]
    exact (hwf.entry r hr).engine
  have hsupplied : (readRequestOf relation pageNumber r snapshot).readerSupplied = true := by
    rw [PhysicalMgaCowReadRequest.readerSupplied, readRequestOf, hkind]
    simp
  have hsame : r.identity.localId = snapshot.readerTransaction := hreader.symm
  rw [hsame] at hid
  rw [validateReader]
  simp only [hsupplied]
  rw [readRequestOf]
  simp [hid, hengine, hscope, hsame]

theorem matchesReader_of_mem (hwf : WellFormed inventory) (hr : r ∈ inventory.entries) :
    matchesReader inventory r.identity = true := by
  have hlookup : lookupLocalTransaction inventory r.identity.localId = .ok r :=
    lookupLocalTransaction_of_mem hwf hr
  rw [matchesReader, hlookup]
  simp

theorem PageFollows.readRowDataPage (h : PageFollows relation pageNumber device log) :
    ∃ rowPage, Storage.readRowDataPage device relation pageNumber 0 =
      .ok rowPage ∧ rowPage.rows = device.pageRows pageNumber := by
  rw [Storage.readRowDataPage, CowDevice.pageRows]
  cases hfind : lookup RowDataPageBody.pageNumber pageNumber device.rowPages with
  | none => exact ⟨_, rfl, rfl⟩
  | some body =>
    simp only [h.relation body hfind, ne_eq]
    exact ⟨body, rfl, rfl⟩

theorem rowUuid_kind_of_valid (h : validRowIdentity row = true) : row.rowUuid.kind = .row := by
  rw [validRowIdentity] at h
  simp only [Bool.and_eq_true, isTypedEngineIdentity, beq_iff_eq] at h
  exact h.1.1.1.1.1.1.1.1.1.1.1.1

theorem PageFollows.read (h : PageFollows relation pageNumber device log)
    (hcommon : validateCommonRequest device.path relation pageNumber = none)
    (hr : r ∈ device.inventory.entries) (hopen : isActiveForOat r.state = true) :
    ∃ result, readPhysicalMgaCowRowsFromOpenDevice device (readRequestOf relation pageNumber r
          (visibilitySnapshotFor device.inventory r r.localId)) = .ok result ∧
      result.visibleRows = (byRow (device.pageRows pageNumber)).filterMap
        (shownOf (seenBy device.inventory r)) := by
  obtain ⟨rowPage, hpage, hrows⟩ := h.readRowDataPage
  obtain ⟨metadata, hmetadata⟩ := versionMetadata_of_lineage h.wellFormed h.lineage h.valid
  have hobservable : ∀ versions ∈ byRow (device.pageRows pageNumber),
      ∀ row ∈ versions, ∃ e, Observable device.inventory
        (visibilitySnapshotFor device.inventory r r.localId) (seenBy device.inventory r) row e := by
    intro versions hversions row hrow
    rw [byRow, mem_map] at hversions
    obtain ⟨value, _, rfl⟩ := hversions
    rw [mem_insertionSort, mem_filter] at hrow
    obtain ⟨e, _, _, hobservable⟩ := observable_of_lineage h.wellFormed hr hopen
      h.lineage h.valid hrow.1
    exact ⟨e, hobservable⟩
  obtain ⟨result, hread, hshown⟩ := readRows_ok hobservable
    { inventory := device.inventory, rowPage, versionMetadata := metadata }
  refine ⟨result, ?_, hshown⟩
  have hmatches := matchesReader_of_mem h.wellFormed hr
  rw [readPhysicalMgaCowRowsFromOpenDevice,
    validateReader_eq_none h.wellFormed hr (h.localNode r hr) rfl]
  simp only [readRequestOf, hcommon]
  rw [loadLocalTransactionInventoryFromOpenDevice_of_wellFormed h.wellFormed]
  simp only [bind, Except.bind, hmatches, not_true, and_false]
  rw [hpage]
  simp only
  rw [hrows, hmetadata]
  exact hread

/-- **A read is a serial replay.** Take any run of mutations on one row page,
begins, commits and rollbacks, and any transaction open at its end. The read it
makes with its snapshot succeeds and returns exactly the rows of the table that
replaying leaves: first the admitted transactions in commit order, then the
reader's own mutations. -/
theorem read_returns_serial_replay (cellBytes : κ → Except DiagnosticRecord Nat)
    (start device : CowDevice κ) (steps : List (CowStep κ))
    (relation : TypedUuid) (pageNumber : Nat) (r : TransactionInventoryEntry)
    (hstart : validateLocalTransactionInventoryStructure start.inventory = none)
    (hlocal : ∀ e ∈ start.inventory.entries, e.identity.scope = .localNode)
    (hfresh : lookup RowDataPageBody.pageNumber pageNumber start.rowPages = none)
    (hsteps : ∀ step ∈ steps, step.OnPage relation pageNumber)
    (hrun : runCowSteps cellBytes start steps = .ok device)
    (hcommon : validateCommonRequest device.path relation pageNumber = none)
    (hr : r ∈ device.inventory.entries) (hopen : r.state = .active ∨ r.state = .readOnlyActive) :
    ∃ s result, createLocalTransactionSnapshot device.inventory r.localId = .ok s ∧
      readPhysicalMgaCowRowsFromOpenDevice device
        (readRequestOf relation pageNumber r s.visibilitySnapshot) = .ok result ∧
      (result.visibleRows.map (·.rowUuid)).Nodup ∧ ∀ rowUuid cells,
        (∃ row ∈ result.visibleRows, row.rowUuid = rowUuid ∧ row.cells = cells) ↔
        tableAfter (serialHistory device.inventory r.localId
          s.visibilitySnapshot.visibleThroughCommitSequence
          (mutationLog steps)) rowUuid = some cells := by
  have hrows : start.pageRows pageNumber = [] := by rw [CowDevice.pageRows, hfresh]
  have hinitial : PageFollows relation pageNumber start [] := by
    refine ⟨validateStructure_eq_none_iff.mp hstart, hlocal, ?_, ?_, ?_, ?_⟩
    · intro body hbody
      rw [hfresh] at hbody
      cases hbody
    · rw [hrows]
      simp
    · rw [hrows]
      exact lineage_nil _
    · rw [hrows]
      rfl
  have hfollows := pageFollows_of_run hinitial hsteps hrun
  rw [nil_append] at hfollows
  have hactive : isActiveForOat r.state = true := by
    rcases hopen with hs | hs <;> rw [hs] <;> decide
  have hsupports : snapshotSupportsState r.state = true := by
    rcases hopen with hs | hs <;> rw [hs] <;> decide
  obtain ⟨s, hs⟩ := createLocalTransactionSnapshot_of_supported hfollows.wellFormed hr hsupports
  obtain ⟨_, r', hr', hid, _, _, hsnapshot, _⟩ := createLocalTransactionSnapshot_ok hs
  obtain rfl : r' = r := hfollows.wellFormed.entry_unique hr' hr hid
  obtain ⟨result, hread, hvisible⟩ := hfollows.read hcommon hr hactive
  have hascending := pairwise_map.mp hfollows.lineage.ascending
  have hkind : ∀ row ∈ device.pageRows pageNumber, row.rowUuid.kind = .row :=
    fun row hrow => rowUuid_kind_of_valid (hfollows.valid row hrow)
  refine ⟨s, result, hs, ?_, ?_, ?_⟩
  · rw [hsnapshot]
    exact hread
  · rw [hvisible]
    exact shown_nodup hascending hkind _
  · intro rowUuid cells
    have hboundary : s.visibilitySnapshot.visibleThroughCommitSequence =
        commitBoundaryFor device.inventory r' := by
      rw [hsnapshot]
      rfl
    rw [hboundary, ← hfollows.logged, tableAfter_eq hfollows.wellFormed hr hactive hfollows.lineage]
    constructor
    · rintro ⟨row, hrow, rfl, rfl⟩
      rw [hvisible, mem_shown_iff hascending hkind] at hrow
      rw [hrow.1]
      simp [hrow.2]
    · intro htable
      obtain ⟨row, hnewest, hcells⟩ := Option.bind_eq_some_iff.mp htable
      have hmem := mem_of_getLast? hnewest
      rw [mem_filter, Bool.and_eq_true, decide_eq_true_eq] at hmem
      have hlive : row.deleted = false := by
        cases hd : row.deleted with
        | true => rw [hd] at hcells; cases hcells
        | false => rfl
      rw [hlive] at hcells
      refine ⟨row, ?_, hmem.2.1, by simpa using hcells⟩
      rw [hvisible, mem_shown_iff hascending hkind, hmem.2.1]
      exact ⟨hnewest, hlive⟩

end

def transactionUuidOf (localId : UInt8) : TypedUuid := ⟨.transaction, engineUuid localId⟩

def mutationOf (localId row version : UInt8) (kind : PhysicalMgaCowMutationKind)
    (cells : List Nat) : CowStep Nat :=
  .write
    { relationUuid := ⟨.object, engineUuid 50⟩
      rowUuid := ⟨.row, engineUuid row⟩
      transactionUuid := transactionUuidOf localId
      existingLocalTransactionId := localId.toNat
      useExistingTransaction := true
      kind
      pageNumber := 6
      cells } (.ok ⟨.row, engineUuid version⟩) 20

def finalizationOf (localId : UInt8) (decision : PhysicalMgaCowFinalizeDecision) : CowStep Nat :=
  .finalize
    { transaction := ⟨localId.toNat, transactionUuidOf localId, .localNode⟩, decision
      finalUnixEpochMillis := 21 }

/-- A stable reader begins after the first commit; the row it could see is then
updated by a second transaction and deleted by a third, which rolls back. -/
def sharedRowSteps : List (CowStep Nat) :=
  [.begin false false (transactionUuidOf 1) 10, mutationOf 1 100 101 .insert [1],
   finalizationOf 1 .commit, .begin false true (transactionUuidOf 2) 11,
   .begin false false (transactionUuidOf 3) 12, mutationOf 3 100 102 .update [3],
   finalizationOf 3 .commit, .begin false false (transactionUuidOf 4) 13,
   mutationOf 4 100 103 .deleteRow [], finalizationOf 4 .rollback, mutationOf 2 110 111 .insert [2]]

def emptyDevice : CowDevice Nat := { path := "node", pageSize := 4096 }

def sharedRowDevice : CowDevice Nat :=
  (runCowSteps (fun _ => .ok 8) emptyDevice sharedRowSteps).toOption.getD {}

def sharedRowReader : TransactionInventoryEntry := (findEntry sharedRowDevice.inventory 2).getD {}

theorem sharedRow_read_replays :
    (sharedRowDevice.pageRows 6).length = 4 ∧ ∃ s result,
      createLocalTransactionSnapshot sharedRowDevice.inventory 2 = .ok s ∧
      readPhysicalMgaCowRowsFromOpenDevice sharedRowDevice
        (readRequestOf ⟨.object, engineUuid 50⟩ 6 sharedRowReader
          s.visibilitySnapshot) = .ok result ∧
      (result.visibleRows.map (·.rowUuid)).Nodup ∧ ∀ rowUuid cells,
        (∃ row ∈ result.visibleRows, row.rowUuid = rowUuid ∧ row.cells = cells) ↔
        tableAfter (serialHistory sharedRowDevice.inventory 2
          s.visibilitySnapshot.visibleThroughCommitSequence
          (mutationLog sharedRowSteps)) rowUuid = some cells := by
  have hreached :
      (sharedRowDevice.pageRows 6).length = 4 ∧
      (∀ step ∈ sharedRowSteps, step.OnPage ⟨.object, engineUuid 50⟩ 6) ∧
      runCowSteps (fun _ => .ok 8) emptyDevice sharedRowSteps = .ok sharedRowDevice ∧
      validateCommonRequest sharedRowDevice.path ⟨.object, engineUuid 50⟩ 6 = none ∧
      sharedRowReader ∈ sharedRowDevice.inventory.entries ∧ sharedRowReader.localId = 2 ∧
      (sharedRowReader.state = .active ∨ sharedRowReader.state = .readOnlyActive) := by
    decide +kernel
  obtain ⟨hlength, hsteps, hrun, hcommon, hreader, hid, hopen⟩ := hreached
  refine ⟨hlength, ?_⟩
  exact read_returns_serial_replay (fun _ => .ok 8) emptyDevice sharedRowDevice
    sharedRowSteps ⟨.object, engineUuid 50⟩ 6 sharedRowReader (by decide)
    (by decide) (by decide) hsteps hrun hcommon hreader hopen

end ScratchBird.Storage
