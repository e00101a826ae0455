import ScratchBird.Proofs.Evolution

/-!
# What a snapshot sees

`evaluate` reads a dozen fields in a fixed order. For a version whose metadata
was derived from its creator's inventory entry most of the order is irrelevant,
and this file says what is left. A version of another transaction is seen
exactly when that transaction committed within the snapshot's commit boundary:
the local-number watermark and the two exclusion lists, both recomputed from the
inventory at hand, agree with the boundary and never decide anything by
themselves. A version of the reader's own is always seen.

Repeatable reads follow. A stable reader's boundary is fixed at its begin; a
transaction that commits later takes a sequence at or above a counter that was
already past the boundary; and one that had committed keeps its sequence. So two
snapshots of the same stable reader, however far apart in a run, agree on every
transaction both inventories still hold.
-/

namespace ScratchBird.Mga

open Lib List

variable {nextId nextCommit boundary num reader : Nat} {effect deleted : Bool}
  {before after inventory started now : LocalTransactionInventory}
  {e r R C c c' : TransactionInventoryEntry} {m : RowVersionMetadata} {s' p : VisibilitySnapshot}
  {s : TransactionSnapshotResult}

/-- Metadata derived from a row and its creator's entry. The last six fields are
about the row alone; a tombstone may come without a payload. -/
structure DerivedFrom (e : TransactionInventoryEntry) (deleted : Bool)
    (m : RowVersionMetadata) : Prop where
  creator : m.identity.creatorTransaction = e.identity
  creatorState : m.creatorTransactionState = inventoryVisibilityState e
  commitSequence : m.creatorCommitSequence = e.commitSequence
  state : m.state = rowStateForEntry deleted (inventoryVisibilityState e)
  versionUuid : isEngineIdentityUuid m.identity.versionUuid = true ∧
    m.identity.versionUuid ≠ m.identity.rowUuid.value
  rowUuid : observeRowIdentity m.identity.rowUuid = none
  sequence : m.identity.versionSequence ≠ kInvalidRowVersionSequence
  payload : deleted = false → m.payloadPresent = true
  previous : m.chain.hasPrevious = true →
    m.chain.previousVersionSequence < m.identity.versionSequence
  next : m.chain.hasNext = true → m.identity.versionSequence < m.chain.nextVersionSequence

/-! ## Derived metadata -/

theorem observeTransactionIdentity_of_valid {i : TransactionIdentity} (h : i.valid = true)
    (hengine : isEngineIdentityUuid i.transactionUuid.value = true) :
    observeTransactionIdentity i = none := by
  unfold TransactionIdentity.valid at h
  unfold observeTransactionIdentity validateTransactionIdentity
  simp_all

theorem EntryWellFormed.visibilityState_ne (h : EntryWellFormed nextId nextCommit e) :
    inventoryVisibilityState e ≠ .none ∧ inventoryVisibilityState e ≠ .archived := by
  by_cases harch : e.state = .archived
  · rw [inventoryVisibilityState_archived harch (h.origin harch)]
    rcases h.origin harch with ho | ho | ho <;> rw [ho] <;> decide
  · rw [inventoryVisibilityState_of_not_archived harch (h.origin_none harch)]
    exact ⟨h.state_ne, harch⟩

section

variable (h : DerivedFrom e deleted m)
include h

/-- What the row store derives from an entry of a valid inventory passes the
metadata checks. -/
theorem DerivedFrom.accepted (hwf : WellFormed inventory) (he : e ∈ inventory.entries) :
    observeRowVersionMetadata m = none := by
  have hentry := hwf.entry e he
  obtain ⟨hnone, harch⟩ := hentry.visibilityState_ne
  have hidentity : observeRowVersionIdentity m.identity = none := by
    unfold observeRowVersionIdentity
    rw [if_neg (by simp [h.versionUuid.1, h.versionUuid.2]), h.rowUuid,
      h.creator, observeTransactionIdentity_of_valid hentry.identity hentry.engine]
    simp [h.sequence]
  have hstate : m.state ≠ .unknown := by
    rw [h.state]
    revert hnone harch
    cases deleted <;> cases inventoryVisibilityState e <;> decide
  have hpayload : ¬(¬m.payloadPresent = true ∧ m.state ≠ .deleteMarker ∧
      m.state ≠ .rolledBack) := by
    intro ⟨hp, hdel, _⟩
    cases deleted with
    | true => exact hdel (by rw [h.state]; rfl)
    | false => exact hp (h.payload rfl)
  unfold observeRowVersionMetadata
  rw [hidentity]
  simp only [guard_eq_none_iff]
  refine ⟨hstate, ?_, hpayload, ?_, ?_, trivial⟩
  · rw [h.creatorState]
    exact not_or.mpr ⟨hnone, harch⟩
  · intro ⟨hprev, hge⟩
    exact absurd (h.previous hprev) (Nat.not_lt.mpr hge)
  · intro ⟨hnext, hle⟩
    exact absurd (h.next hnext) (Nat.not_lt.mpr hle)

/-- Judged for its effect, and as it stands when it is not a delete marker, a
derived version has the state of its creator. -/
theorem DerivedFrom.effectState_eq
    (heffect : deleted = true → effect = true) (hnone : inventoryVisibilityState e ≠ .none)
    (harch : inventoryVisibilityState e ≠ .archived) :
    effectState m effect = some (rowStateForEntry false (inventoryVisibilityState e)) := by
  unfold effectState
  cases deleted with
  | true =>
    rw [if_pos ⟨heffect rfl, by rw [h.state]; rfl⟩, h.creatorState]
    revert hnone harch
    cases inventoryVisibilityState e <;> decide
  | false =>
    have hne : m.state ≠ .deleteMarker := by
      rw [h.state]
      cases inventoryVisibilityState e <;> decide
    rw [if_neg (fun hc => hne hc.2), h.state]

theorem DerivedFrom.creatorId : m.identity.creatorTransaction.localId = e.localId := by
  rw [h.creator]
  rfl

/-- The evaluation of a derived version, by the outcome of its creator. It is refused
only while the creator is undecided. -/
theorem DerivedFrom.evaluate_spec {s : VisibilitySnapshot}
    (heffect : deleted = true → effect = true)
    (hwf : WellFormed inventory) (he : e ∈ inventory.entries) :
    (evaluate m s effect).outcome.filter (fun _ =>
      (evaluate m s effect).decision != .waitForTransaction &&
      (evaluate m s effect).decision != .requiresRecovery) = none ∧
    (evaluate m s effect).decision =
      match inventoryVisibilityState e with
      | .committed => (evaluateCommitted m s).decision
      | .rolledBack | .failedTerminal => .invisible
      | .limbo | .recovering => .requiresRecovery
      | _ =>
        if s.allowReaderOwnUncommitted ∧ localIdValid s.readerTransaction ∧
            e.localId = s.readerTransaction then .visible
        else .waitForTransaction := by
  obtain ⟨hnone, harch⟩ := (hwf.entry e he).visibilityState_ne
  have hcommitted : inventoryVisibilityState e = .committed →
      (evaluateCommitted m s).outcome = none := by
    intro hc
    have hpos := ((hwf.entry e he).committed (hasCommittedInventoryOutcome_iff.mpr hc)).1
    rw [evaluateCommitted]
    split
    · rfl
    · rw [if_neg]
      · split
        · rfl
        · split <;> rfl
      · rw [h.commitSequence]
        omega
  unfold evaluate
  rw [h.accepted hwf he, h.effectState_eq heffect hnone harch]
  simp only [h.creatorState, h.creatorId]
  cases hv : inventoryVisibilityState e with
  | none => exact absurd hv hnone
  | archived => exact absurd hv harch
  | committed => simp [rowStateForEntry, hcommitted hv]
  | rolledBack | failedTerminal | limbo | recovering => simp [rowStateForEntry]
  | created | active | preparing | prepared | committing | rollingBack
  | readOnlyActive =>
    simp only [rowStateForEntry, reduceCtorEq, or_self, or_true, true_or, if_false, if_true]
    split <;> exact ⟨rfl, rfl⟩

end

/-! ## The snapshot of a reader -/

theorem mem_activeExclusions :
    num ∈ activeExclusions inventory boundary ↔
      ∃ x ∈ inventory.entries, excludedAsActive boundary x = true ∧ x.localId = num := by
  unfold activeExclusions
  rw [mem_insertionSort, mem_map]
  simp only [mem_filter, and_assoc]

theorem mem_inDoubtExclusions :
    num ∈ inDoubtExclusions inventory boundary ↔
      ∃ x ∈ inventory.entries, excludedAsActive boundary x = false ∧
        isInDoubtSnapshotExclusion x.state = true ∧ x.localId = num := by
  unfold inDoubtExclusions
  rw [mem_insertionSort, mem_map]
  simp only [mem_filter, Bool.and_eq_true, Bool.not_eq_true', and_assoc]

theorem createLocalTransactionSnapshot_ok
    (h : createLocalTransactionSnapshot inventory reader = .ok s) :
    WellFormed inventory ∧ ∃ r ∈ inventory.entries, r.localId = reader ∧
      localIdValid reader = true ∧ snapshotSupportsState r.state = true ∧
      s.visibilitySnapshot = visibilitySnapshotFor inventory r reader ∧
      s.snapshot.visibleThroughLocalTransaction =
        visibleHighWatermark inventory (commitBoundaryFor inventory r) ∧
      s.snapshot.readerTransaction = reader ∧
      s.snapshot.visibleThroughCommitSequence = commitBoundaryFor inventory r ∧
      s.snapshot.transactionStartVisibleThroughLocalTransaction =
        r.beginVisibleThroughLocalTransactionId ∧
      s.snapshot.transactionStartVisibleThroughCommitSequence =
        r.beginVisibleThroughCommitSequence := by
  revert h
  fun_cases createLocalTransactionSnapshot inventory reader with
  | case5 hvalid r hlookup hstate =>
    rintro ⟨⟩
    obtain ⟨hmem, hid, hvalidId⟩ := lookupLocalTransaction_ok hlookup
    exact ⟨validateStructure_eq_none_iff.mp hvalid, r, hmem, hid, hvalidId,
      by simpa using hstate, rfl, rfl, rfl, rfl, rfl, rfl⟩
  | _ => exact nofun

theorem EntryWellFormed.state_of_committed (h : EntryWellFormed nextId nextCommit e)
    (hc : hasCommittedInventoryOutcome e = true) : e.state = .committed ∨ e.state = .archived := by
  by_cases harch : e.state = .archived
  · exact .inr harch
  · have hvis := inventoryVisibilityState_of_not_archived harch (h.origin_none harch)
    rw [hasCommittedInventoryOutcome_iff, hvis] at hc
    exact .inl hc

/-- No transaction the boundary admits is on either exclusion list. -/
theorem not_excluded_of_committed (hwf : WellFormed inventory)
    (he : e ∈ inventory.entries) (hc : hasCommittedInventoryOutcome e = true)
    (hle : e.commitSequence ≤ boundary) :
    e.localId ∉ activeExclusions inventory boundary ∧
      e.localId ∉ inDoubtExclusions inventory boundary := by
  have hsame : ∀ x ∈ inventory.entries, x.localId = e.localId → x = e :=
    fun x hx hid => hwf.entry_unique hx he hid
  have hstate := (hwf.entry e he).state_of_committed hc
  constructor
  · intro hmem
    obtain ⟨x, hx, hex, hid⟩ := mem_activeExclusions.mp hmem
    rw [hsame x hx hid] at hex
    rcases Bool.or_eq_true_iff.mp hex with hactive | hlate
    · rcases hstate with hs | hs <;> rw [hs] at hactive <;>
        cases hactive
    · rw [Bool.and_eq_true, decide_eq_true_eq] at hlate
      omega
  · intro hmem
    obtain ⟨x, hx, _, hdoubt, hid⟩ := mem_inDoubtExclusions.mp hmem
    rw [hsame x hx hid] at hdoubt
    rcases hstate with hs | hs <;> rw [hs] at hdoubt <;>
      cases hdoubt

/-- Whoever is on neither list had resolved, and within the boundary if it had
committed. -/
theorem resolved_of_not_listed (hwf : WellFormed inventory) (he : e ∈ inventory.entries)
    (hactive : e.localId ∉ activeExclusions inventory boundary)
    (hdoubt : e.localId ∉ inDoubtExclusions inventory boundary) :
    isTerminalTransactionState (inventoryVisibilityState e) = true ∧
      (hasCommittedInventoryOutcome e = true → e.commitSequence ≤ boundary) := by
  have hnot : excludedAsActive boundary e = false :=
    Bool.eq_false_iff.mpr fun h => hactive (mem_activeExclusions.mpr ⟨e, he, h, rfl⟩)
  have hsettled : isInDoubtSnapshotExclusion e.state = false :=
    Bool.eq_false_iff.mpr fun h => hdoubt (mem_inDoubtExclusions.mpr ⟨e, he, hnot, h, rfl⟩)
  rw [excludedAsActive, Bool.or_eq_false_iff, Bool.and_eq_false_iff,
    decide_eq_false_iff_not, not_lt] at hnot
  obtain ⟨hidle, hlate⟩ := hnot
  refine ⟨?_, fun hc => hlate.resolve_left (by rw [hc]; exact Bool.noConfusion)⟩
  have hentry := hwf.entry e he
  by_cases harch : e.state = .archived
  · rw [inventoryVisibilityState_archived harch (hentry.origin harch)]
    rcases hentry.origin harch with ho | ho | ho <;> rw [ho] <;> rfl
  · rw [inventoryVisibilityState_of_not_archived harch (hentry.origin_none harch)]
    have hne := hentry.state_ne
    revert hidle hsettled harch hne
    cases e.state <;> decide

/-- Two snapshots of one reader that treat committed versions alike treat all
versions alike. -/
theorem evaluate_congr {s : VisibilitySnapshot}
    (hreader : s.readerTransaction = s'.readerTransaction)
    (hown : s.allowReaderOwnUncommitted = s'.allowReaderOwnUncommitted)
    (hcommitted : m.creatorTransactionState = .committed →
      evaluateCommitted m s = evaluateCommitted m s') :
    evaluate m s effect = evaluate m s' effect := by
  rw [evaluate, evaluate, hreader, hown]
  by_cases hstate : m.creatorTransactionState = .committed
  · rw [hcommitted hstate]
  · simp only [hstate, and_false, not_false_iff, if_true]

/-- Of the tests a committed version is put to, only the boundary of the commits
counts, where the others agree with it. -/
theorem evaluateCommitted_eq (hcreator : m.identity.creatorTransaction.localId = e.localId)
    (hsequence : m.creatorCommitSequence = e.commitSequence) (hpos : 0 < e.commitSequence)
    (hboundary : p.visibleThroughCommitSequenceIsBoundary = true)
    (hadmits : e.commitSequence ≤ p.visibleThroughCommitSequence →
      e.localId ≤ p.visibleThroughLocalTransactionId ∧
        e.localId ∉ p.activeExcludedLocalTransactionIds ∧
        e.localId ∉ p.inDoubtExcludedLocalTransactionIds) : evaluateCommitted m p = { decision :=
      if e.commitSequence ≤ p.visibleThroughCommitSequence then .visible else .invisible } := by
  rw [evaluateCommitted]
  simp only [hcreator, hboundary, true_and]
  by_cases hle : e.commitSequence ≤ p.visibleThroughCommitSequence
  · obtain ⟨hid, hactive, hdoubt⟩ := hadmits hle
    rw [if_neg (by omega), if_neg (by omega), if_neg (by omega),
      if_neg (not_or.mpr ⟨hactive, hdoubt⟩), if_pos hle]
  · rw [if_neg hle]
    split
    · rfl
    · rw [if_neg (by omega), if_pos (by omega)]

theorem committed_admitted (hwf : WellFormed inventory) (he : e ∈ inventory.entries)
    (hc : hasCommittedInventoryOutcome e = true) (hle : e.commitSequence ≤ boundary) :
    e.localId ≤ visibleHighWatermark inventory boundary ∧
      e.localId ∉ activeExclusions inventory boundary ∧
      e.localId ∉ inDoubtExclusions inventory boundary := by
  refine ⟨le_greatestOf_iff.mpr (.inr ⟨e, he, ?_, Nat.le_refl _⟩),
    not_excluded_of_committed hwf he hc hle⟩
  rw [hc, Bool.true_and, decide_eq_true_eq]
  exact hle

theorem evaluateCommitted_visible_iff (h : DerivedFrom e deleted m)
    (hwf : WellFormed inventory) (he : e ∈ inventory.entries)
    (hc : hasCommittedInventoryOutcome e = true) :
    (evaluateCommitted m (visibilitySnapshotFor inventory r reader)).decision = .visible ↔
      e.commitSequence ≤ commitBoundaryFor inventory r := by
  have hlate := ((hwf.entry e he).committed hc).1
  rw [evaluateCommitted_eq h.creatorId h.commitSequence (by omega) rfl
    (committed_admitted hwf he hc)]
  exact ite_eq_left_iff.trans (by simp [visibilitySnapshotFor])

section

variable (h : DerivedFrom e deleted m) (heffect : deleted = true → effect = true)
  (hwf : WellFormed inventory) (he : e ∈ inventory.entries)
include h heffect hwf he

/-- Another transaction's version is seen exactly when that transaction
committed within the boundary. -/
theorem DerivedFrom.visible_iff (hne : e.localId ≠ reader) :
    (evaluate m (visibilitySnapshotFor inventory r reader) effect).decision = .visible ↔
      hasCommittedInventoryOutcome e = true ∧ e.commitSequence ≤ commitBoundaryFor inventory r := by
  rw [(h.evaluate_spec heffect hwf he).2]
  by_cases hc : hasCommittedInventoryOutcome e = true
  · rw [hasCommittedInventoryOutcome_iff.mp hc]
    simp only [hc, true_and]
    exact evaluateCommitted_visible_iff h hwf he hc
  · refine iff_of_false ?_ (fun hand => hc hand.1)
    have hreader : (visibilitySnapshotFor inventory r reader).readerTransaction =
        reader := rfl
    rw [hreader]
    rw [hasCommittedInventoryOutcome_iff] at hc
    cases hv : inventoryVisibilityState e with
    | committed => exact absurd hv hc
    | none | archived | rolledBack | failedTerminal | limbo | recovering
    | created | active | preparing | prepared | committing | rollingBack
    | readOnlyActive => simp [hne]

/-- A version of the reader's own is always seen. -/
theorem DerivedFrom.own_visible (hstate : snapshotSupportsState e.state = true)
    (hvalid : localIdValid e.localId = true) :
    (evaluate m (visibilitySnapshotFor inventory r e.localId) effect).decision =
      .visible := by
  rw [(h.evaluate_spec heffect hwf he).2]
  have harch : e.state ≠ .archived := by
    intro hs
    rw [hs] at hstate
    cases hstate
  rw [inventoryVisibilityState_of_not_archived harch ((hwf.entry e he).origin_none harch)]
  have hown : (visibilitySnapshotFor inventory r e.localId).readerTransaction =
      e.localId := rfl
  have hallow : (visibilitySnapshotFor inventory r
      e.localId).allowReaderOwnUncommitted = true := rfl
  rw [hown, hallow]
  revert hstate
  cases e.state <;> simp [hvalid, snapshotSupportsState]

end

/-! ## Repeatable reads -/

theorem wellFormed_empty : WellFormed makeEmptyLocalTransactionInventory :=
  validateStructure_eq_none_iff.mp (by decide)

theorem extends_of_run {ops : List InventoryOperation} (hwf : WellFormed before)
    (h : runOperations before ops = .ok after) : Extends before after := by
  induction ops generalizing before with
  | nil =>
    cases h
    exact Extends.refl hwf
  | cons op ops ih =>
    obtain ⟨mid, hmid, hrest⟩ := bind_eq_ok_iff.mp h
    have hstep := evolves_apply hwf hmid
    exact hstep.extends.trans (ih hstep.wfAfter hrest)

/-- What a stable reader sees of another transaction, at any later point: its
own begin boundary against the other's outcome. -/
theorem stable_visible_iff (hext : Extends started now)
    (hR : R ∈ started.entries) (hstable : R.stableSnapshot = true)
    (hs : createLocalTransactionSnapshot now R.localId = .ok s) (hC : C ∈ now.entries)
    (hne : C.localId ≠ R.localId) (hm : DerivedFrom C false m) :
    (observeVisibility m s.visibilitySnapshot).decision = .visible ↔
      hasCommittedInventoryOutcome C = true ∧
        C.commitSequence ≤ R.beginVisibleThroughCommitSequence := by
  obtain ⟨hwf, r, hr, hid, _, _, hvis, _⟩ := createLocalTransactionSnapshot_ok hs
  have hsame := hext.entry_of_id hR hr hid.symm
  have hboundary : commitBoundaryFor now r =
      R.beginVisibleThroughCommitSequence := by
    rw [commitBoundaryFor, ← hsame.stable, if_pos hstable, hsame.beginCommit]
  rw [hvis, observeVisibility, hm.visible_iff (by simp) hwf hC hne, hboundary]

/-- Commits after a point lie beyond every begin boundary of that point, and
commits before it keep their sequence. -/
theorem Extends.within_boundary_iff (h : Extends before after) (hr : r ∈ before.entries)
    (hc : c ∈ before.entries) (hc' : c' ∈ after.entries) (hid : c.localId = c'.localId) :
    (hasCommittedInventoryOutcome c' = true ∧
        c'.commitSequence ≤ r.beginVisibleThroughCommitSequence) ↔
      (hasCommittedInventoryOutcome c = true ∧
        c.commitSequence ≤ r.beginVisibleThroughCommitSequence) := by
  have hext := h.entry_of_id hc hc' hid
  by_cases hcom : hasCommittedInventoryOutcome c = true
  · obtain ⟨hvis, _, hseq⟩ := hext.final (terminal_of_committed hcom)
    have hcom' : hasCommittedInventoryOutcome c' = true := by
      rw [hasCommittedInventoryOutcome_iff, ← hvis]
      exact hasCommittedInventoryOutcome_iff.mp hcom
    rw [hcom, hcom', hseq]
  · refine iff_of_false ?_ (fun hand => hcom hand.1)
    intro ⟨hcom', hle⟩
    have hfresh := hext.commit_fresh hcom hcom'
    have hlt := (h.wfBefore.entry r hr).begin_lt
    omega

/-- The repeatable-read guarantee over runs: whenever a stable reader takes its
snapshot, it sees exactly what had committed at its begin, and what it sees of a
transaction at one point it sees at every later one. -/
theorem stable_reader_repeats_reads (ops₀ ops₁ : List InventoryOperation)
    {started now : LocalTransactionInventory}
    {R C : TransactionInventoryEntry} {s : TransactionSnapshotResult} {m : RowVersionMetadata}
    (hstart : runOperations makeEmptyLocalTransactionInventory ops₀ = .ok started)
    (hR : R ∈ started.entries) (hstable : R.stableSnapshot = true)
    (hrun : runOperations started ops₁ = .ok now)
    (hs : createLocalTransactionSnapshot now R.localId = .ok s)
    (hC : C ∈ now.entries) (hne : C.localId ≠ R.localId) (hm : DerivedFrom C false m) :
    ((observeVisibility m s.visibilitySnapshot).decision = .visible ↔
      inventoryVisibilityState C = .committed ∧
        C.commitSequence ≤ R.beginVisibleThroughCommitSequence) ∧
    ∀ (ops₂ : List InventoryOperation) (later : LocalTransactionInventory)
      (s' : TransactionSnapshotResult) (C' : TransactionInventoryEntry) (m' : RowVersionMetadata),
      runOperations now ops₂ = .ok later → createLocalTransactionSnapshot later R.localId = .ok s' →
      C' ∈ later.entries → C'.localId = C.localId → DerivedFrom C' false m' →
      ((observeVisibility m' s'.visibilitySnapshot).decision = .visible ↔
        (observeVisibility m s.visibilitySnapshot).decision = .visible) := by
  have hwf := (extends_of_run wellFormed_empty hstart).wfAfter
  have hext := extends_of_run hwf hrun
  have hnow := stable_visible_iff hext hR hstable hs hC hne hm
  refine ⟨by rw [hnow, hasCommittedInventoryOutcome_iff], ?_⟩
  intro ops₂ later s' C' m' hrun' hs' hC' hid hm'
  have hext' := extends_of_run hext.wfAfter hrun'
  have hlater := stable_visible_iff (hext.trans hext') hR hstable hs' hC' (by omega) hm'
  -- The boundary is the same entry's, seen from the later of the two points.
  obtain ⟨_, r, hr, hrid, _⟩ := createLocalTransactionSnapshot_ok hs
  have hbegin := (hext.entry_of_id hR hr hrid.symm).beginCommit
  rw [hlater, hnow, hbegin]
  exact hext'.within_boundary_iff hr hC hC' hid.symm

/-- The metadata of a first version, as derived from its creator's entry. -/
def sampleVersion (e : TransactionInventoryEntry) (deleted : Bool) :
    RowVersionMetadata :=
  { identity :=
      { rowUuid := ⟨.row, engineUuid 100⟩
        creatorTransaction := e.identity
        versionSequence := 1
        versionUuid := engineUuid 101 }
    state := rowStateForEntry deleted (inventoryVisibilityState e)
    creatorTransactionState := inventoryVisibilityState e
    payloadPresent := !deleted
    creatorCommitSequence := e.commitSequence }

theorem derivedFrom_sampleVersion (e : TransactionInventoryEntry)
    (deleted : Bool) : DerivedFrom e deleted (sampleVersion e deleted) :=
  { creator := rfl
    creatorState := rfl
    commitSequence := rfl
    state := rfl
    versionUuid :=
      ⟨show isEngineIdentityUuid (engineUuid 101) = true by decide,
        show engineUuid 101 ≠ engineUuid 100 by decide⟩
    rowUuid := show observeRowIdentity ⟨.row, engineUuid 100⟩ = none by decide
    sequence := show 1 ≠ kInvalidRowVersionSequence by decide
    payload := by rintro rfl; rfl
    previous := fun h => Bool.noConfusion h
    next := fun h => Bool.noConfusion h }

/-- A stable reader begins, and a transaction that began before it commits. -/
def lateCommitStart : List InventoryOperation :=
  [.begin ⟨.transaction, engineUuid 1⟩ 5,
   .beginWithIsolation false true ⟨.transaction, engineUuid 2⟩ 6]

theorem lateCommit_unseen :
    ∃ started now R C s, runOperations makeEmptyLocalTransactionInventory lateCommitStart =
        .ok started ∧
      runOperations started [.commit 1 9] = .ok now ∧ createLocalTransactionSnapshot now 2 = .ok s ∧
      R ∈ started.entries ∧ C ∈ now.entries ∧ inventoryVisibilityState C = .committed ∧
      ((observeVisibility (sampleVersion C false) s.visibilitySnapshot).decision = .visible ↔
        inventoryVisibilityState C = .committed ∧
          C.commitSequence ≤ R.beginVisibleThroughCommitSequence) :=
  ⟨_, _, _, _, _, rfl, rfl, rfl, mem_cons_of_mem _ mem_cons_self, mem_cons_self, rfl,
    (stable_reader_repeats_reads lateCommitStart [.commit 1 9] rfl
      (mem_cons_of_mem _ mem_cons_self) rfl rfl rfl
      mem_cons_self nofun (derivedFrom_sampleVersion _ false)).1⟩

end ScratchBird.Mga
