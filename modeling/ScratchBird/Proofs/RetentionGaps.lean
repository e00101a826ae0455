import ScratchBird.Proofs.Retention
import Mathlib.Data.List.Chain

/-!
# Two gaps in retention

A prepared transaction may still take snapshots, and if it is a stable reader
its boundary is as old as that of an active one. The projection of stable
readers counts only the active ones, so a commit that came after its begin may
fall below the horizon, and with it the version the reader sees instead.

A delete marker is judged by the outcome of its creator, which survives
archiving, and by nothing else. The versions it deletes are judged by the state
their successors' entries happen to be in, and by numbers that need not grow
along the chain. So the marker can be reclaimed first, and what it deleted is
then the newest version of the row.

For each gap there is a run that falls into it and the exact condition under
which it does not open.
-/

namespace ScratchBird.Mga

open Lib List

variable {inventory : LocalTransactionInventory} {registry : SnapshotRegistry}
  {request : LocalCleanupWorksetRequest} {m v : RowVersionMetadata}
  {S R e : TransactionInventoryEntry} {horizons : LocalTransactionHorizons} {deleted : Bool}

/-! ## Prepared readers -/

/-- Something keeps the horizon at or below the number of `S`: an unresolved
transaction, or an active stable reader that does not see a commit numbered no
higher. -/
def HeldBack (inventory : LocalTransactionInventory) (S : TransactionInventoryEntry) : Prop :=
  (∃ e ∈ inventory.entries, isInteresting (inventoryVisibilityState e) = true ∧
        e.localId ≤ S.localId) ∨
    ∃ r, CountedReader inventory r ∧ ∃ e ∈ inventory.entries,
      hasCommittedInventoryOutcome e = true ∧
        r.beginVisibleThroughCommitSequence < e.commitSequence ∧ e.localId ≤ S.localId

theorem not_heldBack_of_belowHorizon (h : BelowHorizon registry inventory S.localId) :
    ¬HeldBack inventory S := by
  intro hheld
  rcases hheld with ⟨e, he, hi, hle⟩ | ⟨r, hr, e, he, hc, hlt, hle⟩
  · have hbelow := (lt_oldestInteresting_iff.mp h.interesting).2 e he hi
    omega
  · have hbelow := h.readers r hr e he hc hlt
    omega

theorem interesting_of_active (hwf : WellFormed inventory) (he : e ∈ inventory.entries)
    (hactive : isActiveForOat e.state = true) :
    isInteresting (inventoryVisibilityState e) = true := by
  have harch : e.state ≠ .archived := by
    intro hs
    rw [hs] at hactive
    cases hactive
  rw [inventoryVisibilityState_of_not_archived harch ((hwf.entry e he).origin_none harch)]
  revert hactive
  cases e.state <;> decide

/-- The horizons of a valid inventory without retained snapshots. -/
theorem computeLocalTransactionHorizons_plain (hwf : WellFormed inventory) :
    computeLocalTransactionHorizons inventory [] = .ok
      { oldestInterestingTransaction := oldestInteresting inventory
        oldestActiveTransaction := oldestActive inventory
        oldestSnapshotTransaction := lowerByStableReaders inventory (oldestActive inventory)
        nextTransactionId := inventory.nextLocalTransactionId } := by
  rw [computeLocalTransactionHorizons, validateStructure_eq_none_iff.mpr hwf]
  rfl

/-- The least of the three horizons. -/
def LocalTransactionHorizons.cleanupHorizon (h : LocalTransactionHorizons) : Nat :=
  min (min h.oldestInterestingTransaction h.oldestActiveTransaction) h.oldestSnapshotTransaction

/-- An unresolved transaction, or a commit some active stable reader does not
see. -/
def Held (inventory : LocalTransactionInventory) (e : TransactionInventoryEntry) : Prop :=
  e ∈ inventory.entries ∧ (isInteresting (inventoryVisibilityState e) = true ∨
      hasCommittedInventoryOutcome e = true ∧ ∃ r, CountedReader inventory r ∧
          r.beginVisibleThroughCommitSequence < e.commitSequence)

/-- The cleanup horizon lies above a number when everything held does. -/
theorem exists_horizons (hwf : WellFormed inventory) :
    ∃ horizons, computeLocalTransactionHorizons inventory [] = .ok horizons ∧
      ∀ n, n < horizons.cleanupHorizon ↔ n < inventory.nextLocalTransactionId ∧
          ∀ e, Held inventory e → n < e.localId := by
  refine ⟨_, computeLocalTransactionHorizons_plain hwf, fun n => ?_⟩
  rw [LocalTransactionHorizons.cleanupHorizon, lt_min_iff, lt_min_iff,
    lt_oldestInteresting_iff, lt_lowerByStableReaders_iff hwf]
  constructor
  · rintro ⟨⟨⟨hnext, hinteresting⟩, -⟩, -, hreaders⟩
    refine ⟨hnext, ?_⟩
    rintro e ⟨he, hi | ⟨hc, r, hr, hlt⟩⟩
    · exact hinteresting e he hi
    · exact (hreaders r hr).2 e he hc hlt
  · rintro ⟨hnext, hheld⟩
    have hinteresting : ∀ e ∈ inventory.entries,
        isInteresting (inventoryVisibilityState e) = true → n < e.localId :=
      fun e he hi => hheld e ⟨he, .inl hi⟩
    have hactive : n < oldestActive inventory :=
      lt_leastOf_iff.mpr ⟨hnext, fun e he ha => hinteresting e he (interesting_of_active hwf he ha)⟩
    refine ⟨⟨⟨hnext, hinteresting⟩, hactive⟩, hactive, fun r hr => ⟨?_, ?_⟩⟩
    · exact lt_oldestInteresting_iff.mpr ⟨hnext, hinteresting⟩
    · exact fun e he hc hlt => hheld e ⟨he, .inr ⟨hc, r, hr, hlt⟩⟩

/-- With nothing published and no extra holds, what is not held back lies below
all three horizons. -/
theorem lt_cleanupHorizon_of_not_heldBack (hwf : WellFormed inventory) (hS : S ∈ inventory.entries)
    (h : ¬HeldBack inventory S)
    (hhorizons : computeLocalTransactionHorizons inventory [] = .ok horizons) :
    S.localId < horizons.cleanupHorizon := by
  obtain ⟨_, hplain, hlt⟩ := exists_horizons hwf
  obtain rfl := Except.ok.inj (hhorizons.symm.trans hplain)
  refine (hlt S.localId).mpr ⟨(hwf.entry S hS).id_lt, fun e hheld => ?_⟩
  by_contra hle
  refine h ?_
  rcases hheld with ⟨he, hi | ⟨hc, r, hr, hafter⟩⟩
  · exact .inl ⟨e, he, hi, Nat.le_of_not_lt hle⟩
  · exact .inr ⟨r, hr, e, he, hc, hafter, Nat.le_of_not_lt hle⟩

theorem computeAuthoritativeCleanupHorizon_plain
    (versions : List RowVersionMetadata) (hwf : WellFormed inventory) :
    ∃ horizon, computeAuthoritativeCleanupHorizon []
        (plainRequest inventory versions).horizonRequest = .ok horizon ∧
      computeLocalTransactionHorizons inventory [] = .ok horizon.horizons := by
  have hvalid := validateStructure_eq_none_iff.mpr hwf
  have hinventory : validateInventory
      (plainRequest inventory versions).horizonRequest = .ok () := by
    unfold validateInventory
    rw [show (plainRequest inventory versions).horizonRequest.inventory = inventory from rfl,
      hvalid]
    rfl
  have hpublished : publishedSnapshotRetentionHorizons [] inventory = .ok [] := by
    rw [publishedSnapshotRetentionHorizons, hvalid]
    rfl
  have hhorizons := computeLocalTransactionHorizons_plain hwf
  rw [computeAuthoritativeCleanupHorizon, hinventory]
  simp only [bind, Except.bind]
  rw [show (plainRequest inventory versions).horizonRequest.inventory =
    inventory from rfl, hpublished]
  simp only
  rw [show (plainRequest inventory versions).horizonRequest.activeSnapshotHorizons
    ++ [] = [] from rfl, hhorizons]
  exact ⟨_, rfl, rfl⟩

theorem derivedFrom_supersededVersion (e : TransactionInventoryEntry)
    (successor : Nat) : DerivedFrom e false (supersededVersion e successor) :=
  { derivedFrom_sampleVersion e false with
    previous := fun h => Bool.noConfusion h
    next := fun _ => show 1 < 2 by decide }

/-- The transaction below `H` that superseded a version and is committed as the
successor check reads it. -/
def SuccessorCommitted (inventory : LocalTransactionInventory) (H : Nat)
    (v : RowVersionMetadata) : Prop :=
  ∃ C ∈ inventory.entries, C.localId = v.successorTransactionLocalId ∧
    C.localId < H ∧ C.state = .committed

theorem findEntry_committed_iff (hwf : WellFormed inventory) {H : Nat}
    (hvalid : localIdValid v.successorTransactionLocalId = true) :
    (localIdValid v.successorTransactionLocalId = true ∧ v.successorTransactionLocalId < H ∧
      ∃ C, findEntry inventory v.successorTransactionLocalId = some C ∧
        C.state = .committed) ↔ SuccessorCommitted inventory H v := by
  constructor
  · rintro ⟨_, hlt, C, hfind, hstate⟩
    obtain ⟨hC, hid⟩ := findEntry_mem hfind
    exact ⟨C, hC, hid, by omega, hstate⟩
  · rintro ⟨C, hC, hid, hlt, hstate⟩
    exact ⟨hvalid, by omega, C, (lookup_eq_some_iff hwf.localIds).mpr ⟨hC, hid⟩, hstate⟩

theorem known_of_committed (h : DerivedFrom e deleted m) (hstate : m.state = .committed) :
    isKnownFinalCreatorOutcome m = true := by
  have hcreator : m.creatorTransactionState = .committed := by
    rw [h.state] at hstate
    rw [h.creatorState]
    revert hstate
    cases deleted <;> cases inventoryVisibilityState e <;> decide
  rw [isKnownFinalCreatorOutcome, hstate, hcreator]
  rfl

/-- A superseded version is reclaimed when its creator lies below the horizon and
so does the transaction that superseded it, committed. -/
theorem reclaims_committed_iff (hwf : WellFormed request.inventory)
    (he : e ∈ request.inventory.entries) (hderived : DerivedFrom e deleted m)
    (hstate : m.state = .committed) (hnext : m.chain.hasNext = true)
    (hvalid : localIdValid m.successorTransactionLocalId = true)
    (hobsolete : request.reclaimObsoleteCommittedVersions = true)
    (hbelow : BelowHolds request m.identity.creatorTransaction.localId) :
    reclaims request horizons horizons.cleanupHorizon m = true ↔
      m.identity.creatorTransaction.localId < horizons.cleanupHorizon ∧
        SuccessorCommitted request.inventory horizons.cleanupHorizon m := by
  rw [reclaims_iff, evaluateLocalCleanupWithHorizons_eligible_iff,
    evaluateSuccessorTransactionForCleanup_eligible_iff, isCleanupReclaimableByKind, hstate,
    hobsolete, ← findEntry_committed_iff hwf hvalid]
  simp only [hbelow, hderived.accepted hwf he, known_of_committed hderived hstate, hnext,
    reduceCtorEq, forall_const, if_false, if_true, true_and]
  rfl

/-- A transaction's own rewrite of a row it wrote: the version it superseded is
reclaimed as soon as nothing holds the transaction back. -/
theorem own_rewrite_reclaimed (hwf : WellFormed inventory)
    (hS : S ∈ inventory.entries) (hstate : S.state = .committed) (hfree : ¬HeldBack inventory S) :
    supersededVersion S S.localId ∈ (applyLocalCleanupWithAuthoritativeInventory []
        (plainRequest inventory [supersededVersion S S.localId])).reclaimedRowVersions := by
  have hc := hasCommittedInventoryOutcome_iff.mp ((hwf.entry S hS).committed_of_state hstate)
  have hvalid := (hwf.entry S hS).identity
  simp only [TransactionIdentity.valid, Bool.and_eq_true] at hvalid
  obtain ⟨horizon, hcompute, hhorizons⟩ :=
    computeAuthoritativeCleanupHorizon_plain [supersededVersion S S.localId] hwf
  have hbelow := lt_cleanupHorizon_of_not_heldBack hwf hS hfree hhorizons
  obtain ⟨_, _, _, _, heq⟩ := computeAuthoritativeCleanupHorizon_ok hcompute
  have hmstate : (supersededVersion S S.localId).state = .committed := by
    show rowStateForEntry false (inventoryVisibilityState S) = .committed
    rw [hc]
    rfl
  have hok : (applyLocalCleanupWithAuthoritativeInventory []
      (plainRequest inventory [supersededVersion S S.localId])).ok = true := by
    unfold applyLocalCleanupWithAuthoritativeInventory
    rw [hcompute]
    exact cleanupRowVersions_ok_of_unlimited rfl rfl
  obtain ⟨_, hcompute', _, hfilter⟩ := applyLocalCleanup_of_ok hok
  obtain rfl := Except.ok.inj (hcompute.symm.trans hcompute')
  rw [hfilter, mem_filter]
  refine ⟨mem_cons_self, ?_⟩
  rw [heq]
  exact (reclaims_committed_iff hwf hS (derivedFrom_supersededVersion S S.localId) hmstate rfl
    hvalid.1.1.1 rfl ⟨forall_mem_nil _, forall_mem_nil _⟩).mpr ⟨hbelow, S, hS, rfl, hbelow, hstate⟩

/-- Exactly when cleanup spares what a prepared reader sees: if the reader is
stable, every commit after its begin has to be held back by something else. -/
theorem prepared_reader_spared_iff {s : TransactionSnapshotResult}
    (hreach : Reachable inventory) (hR : R ∈ inventory.entries) (hprepared : R.state = .prepared)
    (hs : createLocalTransactionSnapshot inventory R.localId = .ok s) :
    (∀ registry request m S, request.inventory = inventory →
      m ∈ (applyLocalCleanupWithAuthoritativeInventory registry request).reclaimedRowVersions →
      m.state = .committed → S ∈ inventory.entries → S.localId = m.successorTransactionLocalId →
      VersionsVisible S s.visibilitySnapshot) ↔
    (R.stableSnapshot = true → ∀ S ∈ inventory.entries, S.state = .committed →
      R.beginVisibleThroughCommitSequence < S.commitSequence → HeldBack inventory S) := by
  obtain ⟨ops, hrun⟩ := hreach
  have hwf := (extends_of_run wellFormed_empty hrun).wfAfter
  obtain ⟨_, r, hr, hid, _, _, hvis, _⟩ := createLocalTransactionSnapshot_ok hs
  have hsame := hwf.entry_unique hr hR hid
  rw [hsame] at hvis
  have hother : ∀ S ∈ inventory.entries, S.state = .committed → S.localId ≠ R.localId := by
    intro S hS hstate heq
    rw [hwf.entry_unique hS hR heq, hprepared] at hstate
    cases hstate
  rw [hvis]
  constructor
  · intro h hstable S hS hstate hlate
    by_contra hfree
    have hvisible := h [] _ _ S rfl (own_rewrite_reclaimed hwf hS hstate hfree) (by
        show rowStateForEntry false (inventoryVisibilityState S) = .committed
        rw [hasCommittedInventoryOutcome_iff.mp ((hwf.entry S hS).committed_of_state hstate)]
        rfl) hS rfl
    have hle := ((versionsVisible_iff hwf hS (hother S hS hstate)).mp hvisible).2
    rw [commitBoundaryFor, if_pos hstable] at hle
    omega
  · intro h registry request m S hrequest hreclaimed hcommitted hS hsucc
    obtain ⟨_, S', hS', hid', hstate, hbelow⟩ := successor_of_reclaimed hreclaimed hcommitted
    rw [hrequest] at hS' hbelow
    obtain rfl : S' = S := hwf.entry_unique hS' hS (hid'.trans hsucc.symm)
    have hc := (hwf.entry S' hS).committed_of_state hstate
    refine (versionsVisible_iff hwf hS (hother S' hS hstate)).mpr ⟨hc, ?_⟩
    rw [commitBoundaryFor]
    split
    · next hstable =>
      by_contra hgt
      exact not_heldBack_of_belowHorizon hbelow (h hstable S' hS hstate (by omega))
    · have hlt := ((hwf.entry S' hS).committed hc).2
      omega

def inventoryAfter (ops : List InventoryOperation) : LocalTransactionInventory :=
  (runOperations makeEmptyLocalTransactionInventory ops).toOption.getD
    makeEmptyLocalTransactionInventory

def entryAfter (ops : List InventoryOperation) (num : Nat) :
    TransactionInventoryEntry :=
  (findEntry (inventoryAfter ops) num).getD {}

/-- An older transaction stays open, another commits after the reader's begin,
and the reader prepares. -/
def heldLateCommitRun : List InventoryOperation :=
  [.begin ⟨.transaction, engineUuid 1⟩ 5, .begin ⟨.transaction, engineUuid 2⟩ 6,
   .beginWithIsolation false true ⟨.transaction, engineUuid 3⟩ 7, .commit 2 8, .prepare 3 {}]

def heldLateCommitInventory : LocalTransactionInventory := inventoryAfter heldLateCommitRun

theorem heldLateCommit_spared :
    ∃ R ∈ heldLateCommitInventory.entries, R.state = .prepared ∧ R.stableSnapshot = true ∧
      ∃ s, createLocalTransactionSnapshot heldLateCommitInventory R.localId = .ok s ∧
        ∀ registry request m S, request.inventory = heldLateCommitInventory →
          m ∈ (applyLocalCleanupWithAuthoritativeInventory registry request).reclaimedRowVersions →
          m.state = .committed → S ∈ heldLateCommitInventory.entries →
          S.localId = m.successorTransactionLocalId → VersionsVisible S s.visibilitySnapshot := by
  have hprepared : (entryAfter heldLateCommitRun 3).state = .prepared := by decide +kernel
  have hmem : entryAfter heldLateCommitRun 3 ∈ heldLateCommitInventory.entries := by decide +kernel
  refine ⟨_, hmem, hprepared, by decide +kernel, _, rfl, ?_⟩
  refine (prepared_reader_spared_iff ⟨heldLateCommitRun, by decide +kernel⟩ hmem hprepared
    rfl).mpr ?_
  intro _ S hS _ _
  refine .inl ⟨entryAfter heldLateCommitRun 1, by decide +kernel, by decide +kernel, ?_⟩
  revert S
  decide +kernel

/-- The same with nothing older open. -/
def lateCommitRun : List InventoryOperation :=
  [.begin ⟨.transaction, engineUuid 1⟩ 5, .commit 1 6, .begin ⟨.transaction, engineUuid 2⟩ 7,
   .beginWithIsolation false true ⟨.transaction, engineUuid 3⟩ 8, .commit 2 9, .prepare 3 {}]

def lateCommitInventory : LocalTransactionInventory := inventoryAfter lateCommitRun

/-- The version the reader sees is reclaimed, and the one that superseded it is
hidden from the reader. -/
theorem prepared_reader_loses_version :
    Reachable lateCommitInventory ∧ ∃ R ∈ lateCommitInventory.entries, R.state = .prepared ∧
      ∃ s, createLocalTransactionSnapshot lateCommitInventory R.localId = .ok s ∧
      ∃ S ∈ lateCommitInventory.entries, S.localId = 2 ∧
        rewrittenVersion ∈ (applyLocalCleanupWithAuthoritativeInventory []
          (plainRequest lateCommitInventory [rewrittenVersion])).reclaimedRowVersions ∧
        rewrittenVersion.state = .committed ∧
        rewrittenVersion.successorTransactionLocalId = S.localId ∧
        (observeVisibility rewrittenVersion s.visibilitySnapshot).decision = .visible ∧
        (observeVisibility (sampleVersion S false) s.visibilitySnapshot).decision = .invisible := by
  refine ⟨⟨lateCommitRun, by decide +kernel⟩, entryAfter lateCommitRun 3, by decide +kernel,
    by decide +kernel, _, rfl, entryAfter lateCommitRun 2, by decide +kernel, by decide +kernel,
    by decide +kernel, by decide +kernel, by decide +kernel, ?_⟩
  exact ⟨rfl, rfl⟩

/-! ## Delete markers -/

/-- One version and the next of its row. -/
structure Supersedes (newer older : RowVersionMetadata) : Prop where
  row : older.identity.rowUuid = newer.identity.rowUuid
  nextUuid : older.chain.nextVersionUuid.value = newer.identity.versionUuid
  nextSequence : older.chain.nextVersionSequence = newer.identity.versionSequence
  successor : older.successorTransactionLocalId = newer.identity.creatorTransaction.localId

/-- All versions of one row, oldest first, with metadata derived from the
inventory. -/
structure CompleteChain (inventory : LocalTransactionInventory)
    (versions : List RowVersionMetadata) : Prop where
  derived : ∀ v ∈ versions, ∃ e ∈ inventory.entries, ∃ deleted, DerivedFrom e deleted v
  linked : versions.IsChain fun older newer => Supersedes newer older
  newest : ∀ v ∈ versions.getLast?, v.chain.hasNext = false

theorem CompleteChain.superseded {older newer : List RowVersionMetadata}
    {marker : RowVersionMetadata}
    (h : CompleteChain inventory (older ++ marker :: newer)) (hv : v ∈ older) :
    ∃ w ∈ older ++ marker :: newer, Supersedes w v := by
  obtain ⟨before, after, rfl⟩ := List.append_of_mem hv
  have hlinked := h.linked
  rw [append_assoc, List.isChain_append] at hlinked
  have htail := hlinked.2.1
  cases after with
  | nil =>
    rw [cons_append, nil_append, List.isChain_cons_cons] at htail
    exact ⟨marker, by simp, htail.1⟩
  | cons w after =>
    rw [cons_append, cons_append, List.isChain_cons_cons] at htail
    exact ⟨w, by simp, htail.1⟩

/-- Exactly when a reclaimed delete marker takes all it deletes with it: every
older committed version, and the transaction that superseded it, lies below the
horizon of the inventory too, and the latter's entry is in the committed state
itself, neither archived nor rolled back. -/
theorem delete_marker_reclaims_older_iff (registry : SnapshotRegistry)
    (request : LocalCleanupWorksetRequest) {horizon : AuthoritativeCleanupHorizonResult}
    (hcompute : computeAuthoritativeCleanupHorizon registry request.horizonRequest = .ok horizon)
    {older newer : List RowVersionMetadata} {marker : RowVersionMetadata}
    (hchain : CompleteChain request.inventory (older ++ marker :: newer))
    (hworkset : ∀ v ∈ older ++ marker :: newer, v ∈ request.rowVersions)
    (hmarkers : request.reclaimDeleteMarkers = true)
    (hobsolete : request.reclaimObsoleteCommittedVersions = true)
    (hholds : request.additionalHolds = []) (hretention : request.historyRetentionHorizons = [])
    (hok : (applyLocalCleanupWithAuthoritativeInventory registry request).ok = true)
    (hmarker : marker.state = .deleteMarker)
    (hcommitted : marker.creatorTransactionState = .committed) :
    (marker ∈ (applyLocalCleanupWithAuthoritativeInventory registry request).reclaimedRowVersions →
      ∀ v ∈ older, v.state = .committed → v ∈ (applyLocalCleanupWithAuthoritativeInventory registry
          request).reclaimedRowVersions) ↔
    (marker.identity.creatorTransaction.localId < horizon.cleanupHorizon →
      ∀ v ∈ older, v.state = .committed →
        v.identity.creatorTransaction.localId < horizon.cleanupHorizon ∧
          SuccessorCommitted request.inventory horizon.cleanupHorizon v) := by
  obtain ⟨_, hcompute', -, hfilter⟩ := applyLocalCleanup_of_ok hok
  obtain rfl := Except.ok.inj (hcompute.symm.trans hcompute')
  obtain ⟨hwf, _, _, _, heq⟩ := computeAuthoritativeCleanupHorizon_ok hcompute
  have hlowered : loweredHorizon request horizon.cleanupHorizon =
      horizon.cleanupHorizon := by
    rw [loweredHorizon, hholds, hretention]
    rfl
  have heq : horizon.cleanupHorizon = horizon.horizons.cleanupHorizon := heq
  rw [hfilter, hlowered, heq]
  have hbelow : ∀ n, BelowHolds request n := by
    intro n
    rw [BelowHolds, hholds, hretention]
    exact ⟨forall_mem_nil _, forall_mem_nil _⟩
  have hmem : marker ∈ older ++ marker :: newer := by simp
  have hmarkerIff : marker ∈ request.rowVersions.filter
      (reclaims request horizon.horizons horizon.horizons.cleanupHorizon) ↔
      marker.identity.creatorTransaction.localId < horizon.horizons.cleanupHorizon := by
    obtain ⟨e, he, deleted, hderived⟩ := hchain.derived marker hmem
    have hknown : isKnownFinalCreatorOutcome marker = true := by
      rw [isKnownFinalCreatorOutcome, hmarker, hcommitted]
      rfl
    rw [mem_filter, reclaims_iff, evaluateLocalCleanupWithHorizons_eligible_iff,
      evaluateSuccessorTransactionForCleanup_eligible_iff, isCleanupReclaimableByKind, hmarker,
        hmarkers]
    simp only [hworkset marker hmem, hbelow, hderived.accepted hwf he, hknown,
      reduceCtorEq, false_implies, if_false, if_true, and_true, true_and]
    rfl
  have holderIff : ∀ v ∈ older, v.state = .committed → (v ∈ request.rowVersions.filter
      (reclaims request horizon.horizons horizon.horizons.cleanupHorizon) ↔
        v.identity.creatorTransaction.localId < horizon.horizons.cleanupHorizon ∧
          SuccessorCommitted request.inventory horizon.horizons.cleanupHorizon v) := by
    intro v hv hstate
    have hvmem : v ∈ older ++ marker :: newer := mem_append_left _ hv
    obtain ⟨e, he, deleted, hderived⟩ := hchain.derived v hvmem
    obtain ⟨w, hw, hsuper⟩ := hchain.superseded hv
    obtain ⟨e', he', _, hderived'⟩ := hchain.derived w hw
    have hnext : v.chain.hasNext = true := by
      rw [RowVersionChainLinks.hasNext, hsuper.nextSequence, bne_iff_ne]
      exact hderived'.sequence
    have hvalid : localIdValid v.successorTransactionLocalId = true := by
      rw [hsuper.successor, hderived'.creator]
      have hidentity := (hwf.entry e' he').identity
      simp only [TransactionIdentity.valid, Bool.and_eq_true] at hidentity
      exact hidentity.1.1.1
    rw [mem_filter, and_iff_right (hworkset v hvmem)]
    exact reclaims_committed_iff hwf he hderived hstate hnext hvalid hobsolete (hbelow _)
  rw [hmarkerIff]
  constructor
  · intro h hlt v hv hstate
    exact (holderIff v hv hstate).mp (h hlt v hv hstate)
  · intro h hlt v hv hstate
    exact (holderIff v hv hstate).mpr (h hlt v hv hstate)

/-- The marker that deletes a `supersededVersion`. -/
def deleteMarkerVersion (e : TransactionInventoryEntry) : RowVersionMetadata :=
  { sampleVersion e true with
    identity :=
      { rowUuid := ⟨.row, engineUuid 100⟩
        creatorTransaction := e.identity
        versionSequence := 2
        versionUuid := engineUuid 102 }
    chain := { previousVersionUuid := ⟨.row, engineUuid 101⟩, previousVersionSequence := 1 } }

theorem derivedFrom_deleteMarkerVersion (e : TransactionInventoryEntry) :
    DerivedFrom e true (deleteMarkerVersion e) :=
  { derivedFrom_sampleVersion e true with
    creator := rfl
    versionUuid :=
      ⟨show isEngineIdentityUuid (engineUuid 102) = true by decide,
        show engineUuid 102 ≠ engineUuid 100 by decide⟩
    rowUuid := show observeRowIdentity ⟨.row, engineUuid 100⟩ = none by decide
    sequence := show 2 ≠ kInvalidRowVersionSequence by decide
    previous := fun _ => show 1 < 2 by decide
    next := fun h => Bool.noConfusion h }

theorem completeChain_deleted (first deleter : TransactionInventoryEntry)
    (hfirst : first ∈ inventory.entries) (hdeleter : deleter ∈ inventory.entries) :
    CompleteChain inventory ([supersededVersion first deleter.localId] ++
        [deleteMarkerVersion deleter]) where
  derived := by
    intro v hv
    rcases mem_cons.mp hv with rfl | hv
    · exact ⟨first, hfirst, false, derivedFrom_supersededVersion _ _⟩
    · rw [mem_singleton.mp hv]
      exact ⟨deleter, hdeleter, true, derivedFrom_deleteMarkerVersion _⟩
  linked := by
    rw [cons_append, nil_append, List.isChain_pair]
    exact ⟨rfl, rfl, rfl, rfl⟩
  newest := by
    intro v hv
    obtain rfl : deleteMarkerVersion deleter = v := Option.some.inj hv
    rfl

/-- One transaction inserts a row, another deletes it, a third begins. -/
def deletedRowRun : List InventoryOperation :=
  [.begin ⟨.transaction, engineUuid 1⟩ 5, .commit 1 6, .begin ⟨.transaction, engineUuid 2⟩ 7,
   .commit 2 8, .begin ⟨.transaction, engineUuid 3⟩ 9]

/-- The row of the run: inserted by transaction 1, deleted by transaction 2. -/
def deletedRow (ops : List InventoryOperation) : List RowVersionMetadata :=
  [supersededVersion (entryAfter ops 1) 2, deleteMarkerVersion (entryAfter ops 2)]

def deletedRowCleanup (ops : List InventoryOperation) :
    LocalCleanupWorksetResult :=
  applyLocalCleanupWithAuthoritativeInventory []
    (plainRequest (inventoryAfter ops) (deletedRow ops))

theorem deletedRow_reclaimed_whole :
    deleteMarkerVersion (entryAfter deletedRowRun 2) ∈
        (deletedRowCleanup deletedRowRun).reclaimedRowVersions ∧
      supersededVersion (entryAfter deletedRowRun 1) 2 ∈
        (deletedRowCleanup deletedRowRun).reclaimedRowVersions := by
  have hchain : CompleteChain (inventoryAfter deletedRowRun) _ :=
    completeChain_deleted (entryAfter deletedRowRun 1)
      (entryAfter deletedRowRun 2) (by decide +kernel) (by decide +kernel)
  have hmarker : deleteMarkerVersion (entryAfter deletedRowRun 2) ∈
      (deletedRowCleanup deletedRowRun).reclaimedRowVersions := by
    decide +kernel
  refine ⟨hmarker, (delete_marker_reclaims_older_iff []
    (plainRequest (inventoryAfter deletedRowRun) (deletedRow deletedRowRun)) rfl
    hchain (fun _ h => h) rfl rfl rfl rfl (by decide +kernel)
    (by decide +kernel) (by decide +kernel)).mpr ?_ hmarker _ mem_cons_self (by decide +kernel)⟩
  intro _ v hv _
  rw [mem_singleton.mp hv]
  refine ⟨by decide +kernel, entryAfter deletedRowRun 2, ?_⟩
  decide +kernel

/-- The same with the deleter archived before the third begins. -/
def archivedDeleterRun : List InventoryOperation :=
  [.begin ⟨.transaction, engineUuid 1⟩ 5, .commit 1 6, .begin ⟨.transaction, engineUuid 2⟩ 7,
   .commit 2 8, .archive 2, .begin ⟨.transaction, engineUuid 3⟩ 9]

/-- The marker goes, the deleted version stays, and the third transaction sees
it. -/
theorem archived_deleter_resurrects_row :
    validateLocalTransactionInventoryStructure (inventoryAfter archivedDeleterRun) = none ∧
      CompleteChain (inventoryAfter archivedDeleterRun) (deletedRow archivedDeleterRun) ∧
      (deletedRowCleanup archivedDeleterRun).ok = true ∧
      (entryAfter archivedDeleterRun 2).state = .archived ∧
      inventoryVisibilityState (entryAfter archivedDeleterRun 2) = .committed ∧
      (deletedRowCleanup archivedDeleterRun).reclaimedRowVersions =
        [deleteMarkerVersion (entryAfter archivedDeleterRun 2)] ∧
      (deletedRowCleanup archivedDeleterRun).retainedRowVersions =
        [supersededVersion (entryAfter archivedDeleterRun 1) 2] ∧
      (supersededVersion (entryAfter archivedDeleterRun 1) 2).state = .committed ∧
      ∃ s, createLocalTransactionSnapshot (inventoryAfter archivedDeleterRun) 3 = .ok s ∧
        (observeVisibility (supersededVersion (entryAfter archivedDeleterRun 1)
          2) s.visibilitySnapshot).decision = .visible := by
  have hchain : CompleteChain (inventoryAfter archivedDeleterRun) _ :=
    completeChain_deleted (entryAfter archivedDeleterRun 1)
      (entryAfter archivedDeleterRun 2) (by decide +kernel) (by decide +kernel)
  refine ⟨by decide +kernel, hchain, by decide +kernel, by decide +kernel,
    by decide +kernel, by decide +kernel, by decide +kernel, by decide +kernel,
    ?_⟩
  exact ⟨_, rfl, rfl⟩

end ScratchBird.Mga
