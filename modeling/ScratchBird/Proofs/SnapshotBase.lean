import ScratchBird.Proofs.CowBatch

/-!
# Which version an update replaces

A mutation looks for its base with the view that every committed transaction has
been seen, whatever its transaction reads with. The walk goes down from the newest
version and passes over nothing but what was rolled back, so the base is the newest
version that was not, and all the others that count stand before it in the order of
commits. A transaction that has written the row goes on from its own version. One
that has not replaces the version of the last commit, and a stable snapshot does not
keep it from doing so when that commit came after its begin.
-/

namespace ScratchBird.Storage

open Lib Mga

variable {κ : Type} {inventory : LocalTransactionInventory}
  {writer x y : TransactionInventoryEntry} {rowUuid : TypedUuid} {index n millis : Nat}
  {issued : Except DiagnosticRecord TypedUuid} {row base : RowDataRecord κ}
  {rows : List (RowDataRecord κ)}

/-- The version's creator is the writer itself or had committed when the writer
began, or it has not committed at all. -/
def CreatedWithin (inventory : LocalTransactionInventory) (writer : TransactionInventoryEntry)
    (row : RowDataRecord κ) : Prop :=
  ∀ e ∈ inventory.entries, e.localId = row.localTransactionId → e.localId ≠ writer.localId →
    e.commitSequence ≤ writer.beginVisibleThroughCommitSequence

theorem createdWithin_base_iff {selected : BaseRowSelection κ} (hwf : WellFormed inventory)
    (hlineage : Lineage inventory (rows.map RowDataRecord.stored))
    (hvalid : ∀ row ∈ rows, validRowIdentity row = true)
    (h : selectBaseRow rows inventory writer rowUuid = .ok selected)
    (hbase : selected.base = some (base, index)) (hwriter : writer ∈ inventory.entries)
    (hactive : writer.state = .active) :
    CreatedWithin inventory writer base ↔
      (∃ row ∈ rows, row.rowUuid = rowUuid ∧ row.localTransactionId = writer.localId) ∨
        ∀ row ∈ rows, row.rowUuid = rowUuid → CreatedWithin inventory writer row := by
  obtain ⟨hmem, huuid⟩ := base_of_selectBaseRow h hbase
  have hstored := List.mem_map_of_mem (f := RowDataRecord.stored) hmem
  obtain ⟨y, hy, hby⟩ := hlineage.created _ hstored
  obtain ⟨last, hselected, hstop, hall⟩ := selectBaseRow_last hwf hlineage hvalid h
  obtain rfl : last = some (base, index) := hselected _ hbase
  obtain ⟨hkept, hsettled⟩ := hstop _ rfl y hy hby.id
  have hlast : ∀ row ∈ rows, row.rowUuid = rowUuid → ∀ x ∈ inventory.entries,
      x.localId = row.localTransactionId → Precedes x y := by
    intro row hrow hrowUuid x hx hxid
    rcases hall row hrow hrowUuid x hx hxid with hrolled | ⟨_, ⟨⟩, z, hz, hzid, hprecedes⟩
    · exact .inl hrolled
    · rwa [hwf.entry_unique hy hz (hby.id.trans hzid.symm)]
  constructor
  · intro hwithin
    by_cases hown : y.localId = writer.localId
    · exact .inl ⟨base, hmem, huuid, hby.id.symm.trans hown⟩
    have hle := hwithin y hy hby.id hown
    refine .inr fun row hrow hrowUuid x hx hxid _ => ?_
    rcases hlast row hrow hrowUuid x hx hxid with hrolled | hsame | ⟨-, hbefore⟩
    · have hzero : x.commitSequence = 0 := by
        refine (hwf.entry x hx).uncommitted ?_
        rw [ne_eq, hasCommittedInventoryOutcome_iff, inventoryVisibilityState_of_not_archived]
          <;> simp [hrolled, (hwf.entry x hx).origin_none]
      omega
    · rwa [hwf.entry_unique hx hy hsame]
    · rcases hsettled with hrolled | hid | hcommitted
      · exact absurd hrolled hkept
      · exact absurd hid hown
      · exact Nat.le_trans (Nat.le_of_lt (hbefore hcommitted)) hle
  · rintro (⟨row, hrow, hrowUuid, hown⟩ | hall)
    · -- The writer is open, so of its versions none can stand before another's.
      intro e he hid hne
      rcases hlast row hrow hrowUuid writer hwriter hown.symm with hs | hsame | ⟨hs, -⟩
      · rw [hactive] at hs
        cases hs
      · exact absurd ((hid.trans hby.id.symm).trans hsame.symm) hne
      · rw [hactive] at hs
        cases hs
    · exact hall base hmem huuid

/-! ## Runs -/

/-- What a run keeps of one page, whichever transactions write to it. -/
structure Tracked (n : Nat) (device : CowDevice κ) : Prop where
  wellFormed : WellFormed device.inventory
  valid : ∀ row ∈ device.pageRows n, validRowIdentity row = true
  lineage : Lineage device.inventory ((device.pageRows n).map RowDataRecord.stored)

section

variable {cellBytes : κ → Except DiagnosticRecord Nat} {device device' : CowDevice κ}
  {request : PhysicalMgaCowMutation κ} {result : PhysicalMgaCowMutationResult κ}

theorem Tracked.settle (h : Tracked n device) (hs : Settles device.inventory inventory) :
    Tracked n { device with inventory := inventory } :=
  ⟨hs.wellFormed, h.valid, h.lineage.settle h.wellFormed hs⟩

theorem Tracked.write (h : Tracked n device)
    (hwrite : writePhysicalMgaCowUnpublishedMutationToOpenDevice cellBytes device request issued
      millis = (device', .ok result)) : Tracked n device' := by
  obtain ⟨hrequest, after, writer, _, hopened, hperform⟩ := write_performed hwrite
  obtain ⟨hs, hwriter, huuid, hactive⟩ := hopened.settles h.wellFormed
  have hafter := h.settle hs
  obtain ⟨base, happended⟩ := performMutation_ok hperform
  by_cases hn : n = request.pageNumber
  · subst hn
    refine ⟨happended.inventory ▸ hs.wellFormed, happended.valid, ?_⟩
    rw [happended.inventory]
    exact happended.lineage hs.wellFormed hafter.lineage hafter.valid hrequest hwriter huuid hactive
  · obtain ⟨rowPage, _, _, written, hread, -, happend, rfl, -⟩ := performMutation_written hperform
    have hnumber : written.pageNumber = request.pageNumber :=
      (appendVersion_ok happend).2.2.1.trans (readRowDataPage_ok hread).2.2
    have hrows : (CowDevice.putPage { device with inventory := after } written).pageRows n =
        device.pageRows n := by
      rw [pageRows_putPage, if_neg (hnumber ▸ hn)]
      rfl
    exact ⟨hs.wellFormed, hrows ▸ h.valid, hrows ▸ hafter.lineage⟩

theorem Tracked.run {steps : List (CowStep κ)} (h : Tracked n device)
    (hrun : runCowSteps cellBytes device steps = .ok device') : Tracked n device' := by
  induction steps generalizing device with
  | nil =>
    cases hrun
    exact h
  | cons step steps ih =>
    rw [runCowSteps, bind_eq_ok_iff] at hrun
    obtain ⟨next, hstep, hrun⟩ := hrun
    refine ih ?_ hrun
    cases step with
    | begin readOnly stable uuid millis =>
      obtain ⟨after, rfl, hs⟩ := settles_of_begin hstep
      exact h.settle hs
    | finalize request =>
      obtain ⟨after, rfl, hs⟩ := settles_of_finalize h.wellFormed hstep
      exact h.settle hs
    | write request issued millis =>
      obtain ⟨_, hwrite⟩ := write_applied hstep
      exact h.write hwrite

end

/-- However begins, writes, commits and rollbacks interleave, the versions of a page
that was unwritten are a lineage: a version stands behind versions of its row that were
rolled back, that its own transaction wrote, or that were committed before it. -/
theorem page_keeps_lineage (cellBytes : κ → Except DiagnosticRecord Nat)
    (start device : CowDevice κ) (steps : List (CowStep κ))
    (hstart : validateLocalTransactionInventoryStructure start.inventory = none)
    (hfresh : lookup RowDataPageBody.pageNumber n start.rowPages = none)
    (hrun : runCowSteps cellBytes start steps = .ok device) :
    Lineage device.inventory ((device.pageRows n).map RowDataRecord.stored) := by
  have hrows : start.pageRows n = [] := by rw [CowDevice.pageRows, hfresh]
  have hinitial : Tracked n start := by
    refine ⟨validateStructure_eq_none_iff.mp hstart, by simp [hrows], ?_⟩
    rw [hrows]
    exact lineage_nil _
  exact (hinitial.run hrun).lineage

theorem sharedRow_keeps_lineage : Lineage sharedRowDevice.inventory
    ((sharedRowDevice.pageRows 6).map RowDataRecord.stored) :=
  page_keeps_lineage (fun _ => .ok 8) emptyDevice sharedRowDevice sharedRowSteps (by decide)
    (by decide) (by decide +kernel)

/-- After any run that found the page unwritten, the version an update or a delete
replaces lies within its transaction's begin boundary exactly if the transaction has
written the row before, or every version of the row lies within the boundary. -/
theorem replaced_within_boundary_iff (cellBytes : κ → Except DiagnosticRecord Nat)
    (start device device' : CowDevice κ) (steps : List (CowStep κ))
    (request : PhysicalMgaCowMutation κ) (issued : Except DiagnosticRecord TypedUuid)
    (millis : Nat) (result : PhysicalMgaCowMutationResult κ)
    (hstart : validateLocalTransactionInventoryStructure start.inventory = none)
    (hfresh : lookup RowDataPageBody.pageNumber request.pageNumber start.rowPages = none)
    (hrun : runCowSteps cellBytes start steps = .ok device)
    (hwrite : writePhysicalMgaCowUnpublishedMutationToOpenDevice cellBytes device request issued
      millis = (device', .ok result)) (hkind : request.kind ≠ .insert) :
    (∃ base ∈ device.versionsOf request.pageNumber request.rowUuid,
      base.rowVersion = result.rowVersion.previousRowVersion ∧
      CreatedWithin result.inventory result.transactionEntry base) ↔
    (∃ row ∈ device.versionsOf request.pageNumber request.rowUuid,
      row.localTransactionId = result.transactionEntry.localId) ∨
    ∀ row ∈ device.versionsOf request.pageNumber request.rowUuid,
      CreatedWithin result.inventory result.transactionEntry row := by
  have hrows : start.pageRows request.pageNumber = [] := by rw [CowDevice.pageRows, hfresh]
  have hinitial : Tracked request.pageNumber start := by
    refine ⟨validateStructure_eq_none_iff.mp hstart, ?_, ?_⟩
    · simp [hrows]
    · rw [hrows]
      exact lineage_nil _
  have hend := hinitial.run hrun
  obtain ⟨-, after, writer, _, hopened, hperform⟩ := write_performed hwrite
  obtain ⟨hs, hwriter, -, hactive⟩ := hopened.settles hend.wellFormed
  have hopen := hend.settle hs
  obtain ⟨rowPage, selected, _, _, hread, hselect, happend, -, hinventory, hentry⟩ :=
    performMutation_written hperform
  obtain ⟨base, index, hbase, hprevious⟩ := appendVersion_based happend hkind
  rw [(readRowDataPage_ok hread).1] at hselect
  obtain ⟨hmem, huuid⟩ := base_of_selectBaseRow hselect hbase
  have hversions : ∀ {row}, row ∈ device.versionsOf request.pageNumber request.rowUuid ↔
      row ∈ device.pageRows request.pageNumber ∧ row.rowUuid = request.rowUuid := by
    intro row
    rw [CowDevice.versionsOf, List.mem_filter, decide_eq_true_eq]
  have hunique : ∀ row ∈ device.versionsOf request.pageNumber request.rowUuid,
      row.rowVersion = base.rowVersion → row = base := by
    intro row hrow hversion
    obtain ⟨hrow, hrowUuid⟩ := hversions.mp hrow
    have hsymm : Std.Symm fun a b : RowDataRecord κ =>
        a.rowUuid = b.rowUuid → a.rowVersion ≠ b.rowVersion :=
      ⟨fun _ _ h huuid => (h huuid.symm).symm⟩
    have hdistinct : (device.pageRows request.pageNumber).Pairwise fun a b =>
        a.rowUuid = b.rowUuid → a.rowVersion ≠ b.rowVersion :=
      (List.pairwise_map.mp hopen.lineage.ascending).imp fun h huuid => Nat.ne_of_lt (h huuid)
    by_contra hne
    exact hdistinct.forall hrow hmem hne (hrowUuid.trans huuid.symm) hversion
  rw [hinventory, hentry, hprevious]
  refine Iff.trans ?_ ((createdWithin_base_iff hopen.wellFormed hopen.lineage hopen.valid hselect
    hbase hwriter hactive).trans ?_)
  · constructor
    · rintro ⟨row, hrow, hversion, hwithin⟩
      rwa [← hunique row hrow hversion]
    · intro hwithin
      exact ⟨base, hversions.mpr ⟨hmem, huuid⟩, rfl, hwithin⟩
  · simp only [hversions, and_assoc, and_imp]
    rfl

/-- The stable reader of `sharedRowSteps` updates a row in its turn. -/
def lateUpdate (row : UInt8) : PhysicalMgaCowMutation Nat :=
  { relationUuid := ⟨.object, engineUuid 50⟩
    rowUuid := ⟨.row, engineUuid row⟩
    transactionUuid := transactionUuidOf 2
    existingLocalTransactionId := 2
    useExistingTransaction := true
    kind := .update
    pageNumber := 6
    cells := [7] }

def lateUpdated (row : UInt8) :
    CowDevice Nat × Except DiagnosticRecord (PhysicalMgaCowMutationResult Nat) :=
  writePhysicalMgaCowUnpublishedMutationToOpenDevice (fun _ => .ok 8) sharedRowDevice
    (lateUpdate row) (.ok ⟨.row, engineUuid 112⟩) 30

theorem lateUpdate_replaces_unseen :
    runCowSteps (fun _ => .ok 8) emptyDevice sharedRowSteps = .ok sharedRowDevice ∧
    ∃ result ∈ (lateUpdated 100).2.toOption, result.transactionEntry.stableSnapshot = true ∧
      ∃ base ∈ sharedRowDevice.versionsOf 6 (lateUpdate 100).rowUuid,
        base.rowVersion = result.rowVersion.previousRowVersion ∧
        ∃ e ∈ result.inventory.entries, e.localId = base.localTransactionId ∧
          e.localId ≠ result.transactionEntry.localId ∧
          result.transactionEntry.beginVisibleThroughCommitSequence < e.commitSequence := by
  decide +kernel

/-- The row it has inserted itself it may go on from. -/
theorem lateUpdate_replaces_own : ∃ result, (lateUpdated 110).2 = .ok result ∧
    ∃ base ∈ sharedRowDevice.versionsOf 6 (lateUpdate 110).rowUuid,
      base.rowVersion = result.rowVersion.previousRowVersion ∧
      CreatedWithin result.inventory result.transactionEntry base := by
  have hreached :
      runCowSteps (fun _ => .ok 8) emptyDevice sharedRowSteps = .ok sharedRowDevice ∧
      ∃ result, (lateUpdated 110).2 = .ok result ∧
        ∃ row ∈ sharedRowDevice.versionsOf 6 (lateUpdate 110).rowUuid,
          row.localTransactionId = result.transactionEntry.localId := by
    decide +kernel
  obtain ⟨hrun, result, hok, hown⟩ := hreached
  refine ⟨result, hok, ?_⟩
  exact (replaced_within_boundary_iff (fun _ => .ok 8) emptyDevice sharedRowDevice _ sharedRowSteps
    (lateUpdate 110) _ 30 result (by decide) (by decide) hrun (Prod.ext rfl hok)
    (by decide)).mpr (.inl hown)

end ScratchBird.Storage
