import ScratchBird.Proofs.Cleanup

/-!
# Cleanup against the readers it serves

Cleanup runs beside readers it does not ask. This file shows that the active
ones, and the holders of published snapshots, lose nothing: whenever a version
is reclaimed because a later one supersedes it, all of them see the later one.
For an active reader that is the stable-reader rule of the projection; for a
published snapshot it is the retention horizon, which was computed on the
inventory the snapshot was taken from and still speaks about the present one.
-/

namespace ScratchBird.Mga

open Lib

variable {inventory : LocalTransactionInventory} {registry : SnapshotRegistry}
  {request : LocalCleanupWorksetRequest} {m : RowVersionMetadata}
  {e r : TransactionInventoryEntry} {n ost : Nat} {req : AuthoritativeCleanupHorizonRequest}
  {horizon : AuthoritativeCleanupHorizonResult} {d : SnapshotVectorDescriptor}

/-! ## Below the horizon -/

theorem lt_oldestInteresting_iff :
    n < oldestInteresting inventory ↔
      n < inventory.nextLocalTransactionId ∧ ∀ x ∈ inventory.entries,
        isInteresting (inventoryVisibilityState x) = true → n < x.localId := lt_leastOf_iff

/-- A reader the projection of stable readers counts. -/
def CountedReader (inventory : LocalTransactionInventory) (r : TransactionInventoryEntry) : Prop :=
  r ∈ inventory.entries ∧ r.stableSnapshot = true ∧ isActiveForOat r.state = true

theorem stableCommitBoundary_lt_iff (hwf : WellFormed inventory) (he : e ∈ inventory.entries)
    (hc : hasCommittedInventoryOutcome e = true) :
    stableCommitBoundary inventory < e.commitSequence ↔ ∃ r, CountedReader inventory r ∧
        r.beginVisibleThroughCommitSequence < e.commitSequence := by
  obtain ⟨hpos, hlt⟩ := (hwf.entry e he).committed hc
  obtain ⟨k, hk⟩ : ∃ k, e.commitSequence = k + 1 := ⟨e.commitSequence - 1, by omega⟩
  rw [hk, Nat.lt_succ_iff, stableCommitBoundary, leastOf_le_iff]
  constructor
  · rintro (hnext | ⟨r, hr, hcounted, hle⟩)
    · omega
    · rw [Bool.and_eq_true] at hcounted
      exact ⟨r, ⟨hr, hcounted⟩, Nat.lt_succ_of_le hle⟩
  · rintro ⟨r, ⟨hr, hstable, hactive⟩, hle⟩
    exact .inr ⟨r, hr, by rw [hstable, hactive]; rfl, Nat.le_of_lt_succ hle⟩

theorem stableCommitBoundary_ne_iff (hwf : WellFormed inventory) :
    stableCommitBoundary inventory ≠ inventory.nextCommitSequence ↔
      ∃ r, CountedReader inventory r := by
  have hle : stableCommitBoundary inventory ≤ inventory.nextCommitSequence :=
    leastOf_le_iff.mpr (.inl (Nat.le_refl _))
  constructor
  · intro hne
    have hlt : ¬inventory.nextCommitSequence - 1 < stableCommitBoundary inventory := by omega
    rw [stableCommitBoundary, lt_leastOf_iff] at hlt
    by_contra hnone
    refine hlt ⟨by have := hwf.nextCommit_ne; omega, ?_⟩
    intro r hr hcounted
    rw [Bool.and_eq_true] at hcounted
    exact absurd ⟨r, hr, hcounted⟩ hnone
  · rintro ⟨r, hr, hstable, hactive⟩ heq
    have hbegin := (hwf.entry r hr).begin_lt
    have hle' : stableCommitBoundary inventory ≤
        r.beginVisibleThroughCommitSequence :=
      leastOf_le_iff.mpr (.inr ⟨r, hr, by rw [hstable, hactive]; rfl, Nat.le_refl _⟩)
    omega

/-- What it takes to lie below the third horizon: beside the snapshots, each
counted reader asks that every commit it does not see lies above. -/
theorem lt_lowerByStableReaders_iff (hwf : WellFormed inventory) :
    n < lowerByStableReaders inventory ost ↔ n < ost ∧ ∀ r, CountedReader inventory r →
        n < oldestInteresting inventory ∧
        ∀ x ∈ inventory.entries, hasCommittedInventoryOutcome x = true →
          r.beginVisibleThroughCommitSequence < x.commitSequence → n < x.localId := by
  unfold lowerByStableReaders
  split
  · next hsome =>
    obtain ⟨r₀, hr₀⟩ := (stableCommitBoundary_ne_iff hwf).mp hsome
    rw [lt_leastOf_iff, lt_min_iff]
    constructor
    · rintro ⟨⟨host, hoit⟩, hall⟩
      refine ⟨host, fun r hr => ⟨hoit, fun x hx hc hlt => ?_⟩⟩
      refine hall x hx ?_
      rw [hc, Bool.true_and, decide_eq_true_eq]
      exact (stableCommitBoundary_lt_iff hwf hx hc).mpr ⟨r, hr, hlt⟩
    · rintro ⟨host, hall⟩
      refine ⟨⟨host, (hall r₀ hr₀).1⟩, fun x hx hp => ?_⟩
      rw [Bool.and_eq_true, decide_eq_true_eq] at hp
      obtain ⟨r, hr, hlt⟩ := (stableCommitBoundary_lt_iff hwf hx hp.1).mp hp.2
      exact (hall r hr).2 x hx hp.1 hlt
  · next hnone =>
    have hno : ∀ r, ¬CountedReader inventory r := fun r hr =>
      hnone ((stableCommitBoundary_ne_iff hwf).mpr ⟨r, hr⟩)
    exact ⟨fun h => ⟨h, fun r hr => absurd hr (hno r)⟩, fun h => h.1⟩

/-! ## The horizon of a request -/

theorem collectRetentionHorizons_mem {published : List Nat}
    (h : collectRetentionHorizons inventory registry = .ok published) :
    ∀ p ∈ registry, p.revoked = false → ownedBy inventory p.descriptor = true →
      p.descriptor.retentionHorizonTransaction ∈ published := by
  induction registry generalizing published with
  | nil =>
    intro p hp
    cases hp
  | cons q rest ih =>
    intro p hp hlive howned
    unfold collectRetentionHorizons at h
    split at h
    · next hskip =>
      rcases List.mem_cons.mp hp with rfl | hp
      · rw [hlive, howned] at hskip
        cases hskip
      · exact ih h p hp hlive howned
    · simp only [snapshotVectorError] at h
      obtain ⟨_, h⟩ := guard_eq_ok_iff.mp h
      obtain ⟨horizons, hrest, heq⟩ := bind_eq_ok_iff.mp h
      cases heq
      rcases List.mem_cons.mp hp with rfl | hp
      · exact List.mem_cons_self
      · exact List.mem_cons_of_mem _ (ih hrest p hp hlive howned)

theorem computeAuthoritativeCleanupHorizon_ok
    (h : computeAuthoritativeCleanupHorizon registry req = .ok horizon) :
    WellFormed req.inventory ∧ ∃ published,
      collectRetentionHorizons req.inventory registry = .ok published ∧
      projectValidatedLocalHorizons req.inventory
        (req.activeSnapshotHorizons ++ published) = .ok horizon.horizons ∧
      horizon.cleanupHorizon = min (min horizon.horizons.oldestInterestingTransaction
          horizon.horizons.oldestActiveTransaction)
          horizon.horizons.oldestSnapshotTransaction := by
  obtain ⟨_, _, h⟩ := bind_eq_ok_iff.mp h
  obtain ⟨_, h⟩ := guard_eq_ok_iff.mp h
  obtain ⟨_, _, h⟩ := bind_eq_ok_iff.mp h
  obtain ⟨published, hpub, h⟩ := bind_eq_ok_iff.mp h
  obtain ⟨horizons, hhor, h⟩ := bind_eq_ok_iff.mp h
  injection h with h
  obtain ⟨hwf, hproject⟩ := computeLocalTransactionHorizons_ok hhor
  unfold publishedSnapshotRetentionHorizons at hpub
  rw [validateStructure_eq_none_iff.mpr hwf] at hpub
  rw [← h]
  exact ⟨hwf, published, hpub, hproject, rfl⟩

/-- A number below the cleanup horizon of a request, in terms of what it was
computed from. -/
structure BelowHorizon (registry : SnapshotRegistry)
    (inventory : LocalTransactionInventory) (n : Nat) : Prop where
  interesting : n < oldestInteresting inventory
  readers : ∀ r, CountedReader inventory r → ∀ x ∈ inventory.entries,
    hasCommittedInventoryOutcome x = true →
    r.beginVisibleThroughCommitSequence < x.commitSequence → n < x.localId
  published : ∀ p ∈ registry, p.revoked = false → ownedBy inventory p.descriptor = true →
    n < p.descriptor.retentionHorizonTransaction

theorem belowHorizon_of_lt (h : computeAuthoritativeCleanupHorizon registry req = .ok horizon)
    (hlt : n < horizon.cleanupHorizon) : BelowHorizon registry req.inventory n := by
  obtain ⟨hwf, published, hpub, hproject, heq⟩ := computeAuthoritativeCleanupHorizon_ok h
  obtain ⟨hoit, _, host⟩ := projectValidatedLocalHorizons_ok hproject
  rw [heq, lt_min_iff, lt_min_iff, hoit, host,
    lt_lowerByStableReaders_iff hwf, lt_foldl_min_iff] at hlt
  obtain ⟨⟨hinteresting, _⟩, ⟨_, hsnapshots⟩, hreaders⟩ := hlt
  refine ⟨hinteresting, fun r hr => (hreaders r hr).2, ?_⟩
  intro p hp hlive howned
  exact hsnapshots _ (List.mem_append_right _ (collectRetentionHorizons_mem hpub p hp hlive howned))

theorem lt_of_lt_loweredHorizon {horizon : Nat}
    (h : n < loweredHorizon request horizon) : n < horizon := by
  rw [loweredHorizon, lt_foldl_min_iff, lt_foldl_min_iff] at h
  exact h.1.1

/-- The successor of a reclaimed version. -/
theorem successor_of_reclaimed (h : m ∈ (applyLocalCleanupWithAuthoritativeInventory registry
      request).reclaimedRowVersions)
    (hstate : m.state = .committed) :
    WellFormed request.inventory ∧ ∃ S ∈ request.inventory.entries,
      S.localId = m.successorTransactionLocalId ∧ S.state = .committed ∧
      BelowHorizon registry request.inventory S.localId := by
  obtain ⟨horizon, hcompute, _, hrec⟩ := applyLocalCleanup_reclaimed h
  obtain ⟨hkind, _, _, hsucc⟩ := reclaims_iff.mp hrec
  have hnext : m.chain.hasNext = true := by
    unfold isCleanupReclaimableByKind at hkind
    rw [hstate, if_neg nofun, if_neg nofun] at hkind
    by_contra hno
    rw [if_neg (fun hand => hno hand.2)] at hkind
    cases hkind
  obtain ⟨_, hlt, S, hfind, hS⟩ :=
    evaluateSuccessorTransactionForCleanup_eligible_iff.mp hsucc hstate hnext
  obtain ⟨hmem, hid⟩ := findEntry_mem hfind
  refine ⟨(computeAuthoritativeCleanupHorizon_ok hcompute).1, S, hmem, hid, hS, ?_⟩
  rw [hid]
  exact belowHorizon_of_lt hcompute (lt_of_lt_loweredHorizon hlt)

/-! ## Active readers and published snapshots -/

theorem EntryWellFormed.committed_of_state {nextId nextCommit : Nat}
    (h : EntryWellFormed nextId nextCommit e) (hstate : e.state = .committed) :
    hasCommittedInventoryOutcome e = true := by
  have harch : e.state ≠ .archived := by
    rw [hstate]
    decide
  rw [hasCommittedInventoryOutcome_iff,
    inventoryVisibilityState_of_not_archived harch (h.origin_none harch), hstate]

theorem createLocalTransactionSnapshot_of_supported
    (hwf : WellFormed inventory) (hr : r ∈ inventory.entries)
    (hstate : snapshotSupportsState r.state = true) :
    ∃ s, createLocalTransactionSnapshot inventory r.localId = .ok s := by
  have hstructure := validateStructure_eq_none_iff.mpr hwf
  rw [createLocalTransactionSnapshot, lookupLocalTransaction_of_mem hwf hr]
  simp only [hstate]
  rw [computeLocalTransactionHorizons, hstructure]
  exact ⟨_, rfl⟩

/-- The snapshot a published descriptor stands for: its watermark and its
exclusion lists, without a commit boundary, which it does not carry. -/
def SnapshotVectorDescriptor.visibility (d : SnapshotVectorDescriptor) :
    VisibilitySnapshot :=
  { readerTransaction := d.owningTransaction
    visibleThroughLocalTransactionId := d.visibleCommittedHighWatermark
    visibleThroughLocalTransactionIdIsBoundary := true
    activeExcludedLocalTransactionIds := d.activeExcludedLocalTransactionIds
    inDoubtExcludedLocalTransactionIds := d.inDoubtExcludedLocalTransactionIds }

/-- Every version of `S` takes effect under the snapshot, and is seen if it is
not a delete marker. -/
def VersionsVisible (S : TransactionInventoryEntry) (s : VisibilitySnapshot) :
    Prop :=
  ∀ deleted version, DerivedFrom S deleted version →
    (observeVersionEffectVisibility version s).decision = .visible ∧
      (deleted = false → (observeVisibility version s).decision = .visible)

theorem versionsVisible_iff {reader : Nat} (hwf : WellFormed inventory)
    (he : e ∈ inventory.entries) (hne : e.localId ≠ reader) :
    VersionsVisible e (visibilitySnapshotFor inventory r reader) ↔
      hasCommittedInventoryOutcome e = true ∧ e.commitSequence ≤ commitBoundaryFor inventory r := by
  constructor
  · intro h
    have hsample := derivedFrom_sampleVersion e false
    exact (hsample.visible_iff (by simp) hwf he hne).mp (h _ _ hsample).1
  · intro h deleted version hv
    refine ⟨(hv.visible_iff (fun _ => rfl) hwf he hne).mpr h, ?_⟩
    rintro rfl
    exact (hv.visible_iff (by simp) hwf he hne).mpr h

theorem versionsVisible_of_descriptor (hwf : WellFormed inventory)
    (he : e ∈ inventory.entries) (hc : hasCommittedInventoryOutcome e = true)
    (hmark : e.localId ≤ d.visibleCommittedHighWatermark)
    (hactive : e.localId ∉ d.activeExcludedLocalTransactionIds)
    (hdoubt : e.localId ∉ d.inDoubtExcludedLocalTransactionIds) :
    VersionsVisible e d.visibility := by
  intro deleted version hv
  have hcreator : version.identity.creatorTransaction.localId = e.localId := by
    rw [hv.creator]
    rfl
  have hseen : (evaluateCommitted version d.visibility).decision = .visible := by
    have hno : d.visibility.visibleThroughCommitSequenceIsBoundary ≠ true := Bool.false_ne_true
    rw [evaluateCommitted, hcreator, if_neg (fun h => absurd h.2 (Nat.not_lt.mpr hmark)),
      if_neg (fun h => hno h.1), if_neg (fun h => hno h.1), if_neg (fun h => h.elim hactive hdoubt)]
  have heval : ∀ effect, (deleted = true → effect = true) →
      (evaluate version d.visibility effect).decision = .visible := by
    intro effect heffect
    rw [(hv.evaluate_spec heffect hwf he).2, hasCommittedInventoryOutcome_iff.mp hc]
    exact hseen
  refine ⟨heval true (fun _ => rfl), ?_⟩
  rintro rfl
  exact heval false (by simp)

/-- What lies below the retention horizon of a published snapshot had committed
when it was published, within its boundary. -/
theorem versionsVisible_of_published {published : LocalTransactionInventory}
    (hext : Extends published inventory) (hon : PublishedOn published d)
    (he : e ∈ inventory.entries) (hc : hasCommittedInventoryOutcome e = true)
    (hlt : e.localId < d.retentionHorizonTransaction) : VersionsVisible e d.visibility := by
  obtain ⟨r, hr, hid, hmark, hactive, hdoubt⟩ := hon.owner
  rw [hon.retention, snapshotRetentionBoundary, lt_foldl_min_iff, lt_foldl_min_iff, lt_min_iff,
    hactive, hdoubt] at hlt
  obtain ⟨⟨⟨-, howner⟩, hbelowActive⟩, hbelowDoubt⟩ := hlt
  have hnotActive : e.localId ∉ activeExclusions published
      (commitBoundaryFor published r) := fun hmem =>
    absurd (hbelowActive _ hmem) (Nat.lt_irrefl _)
  have hnotDoubt : e.localId ∉ inDoubtExclusions published
      (commitBoundaryFor published r) := fun hmem =>
    absurd (hbelowDoubt _ hmem) (Nat.lt_irrefl _)
  -- The number is older than the owner, so the entry was there at publication,
  -- and on neither list, so it was resolved.
  have hold : ∃ old ∈ published.entries, old.localId = e.localId ∧
      EntryExtends published.nextCommitSequence old e := by
    rcases hext.entry e he with hold | ⟨hge, _⟩
    · exact hold
    · have howner' := (hext.wfBefore.entry r hr).id_lt
      omega
  obtain ⟨old, hold, holdId, hevolved⟩ := hold
  rw [← holdId] at hnotActive hnotDoubt
  obtain ⟨hterminal, hwithin⟩ := resolved_of_not_listed hext.wfBefore hold hnotActive hnotDoubt
  have hcommitted : hasCommittedInventoryOutcome old = true := by
    rw [hasCommittedInventoryOutcome, (hevolved.final hterminal).1]
    exact hc
  refine versionsVisible_of_descriptor hext.wfAfter he hc ?_ ?_ ?_
  · rw [hmark, ← holdId]
    exact (committed_admitted hext.wfBefore hold hcommitted (hwithin hcommitted)).1
  · rw [hactive, ← holdId]
    exact hnotActive
  · rw [hdoubt, ← holdId]
    exact hnotDoubt

/-- Below the horizon, commits are within the boundary of every active reader. -/
theorem within_boundary_of_belowHorizon (hwf : WellFormed inventory)
    (hr : r ∈ inventory.entries) (hactive : isActiveForOat r.state = true)
    (he : e ∈ inventory.entries) (hc : hasCommittedInventoryOutcome e = true)
    (hbelow : BelowHorizon registry inventory e.localId) :
    e.commitSequence ≤ commitBoundaryFor inventory r := by
  have hlt := ((hwf.entry e he).committed hc).2
  rw [commitBoundaryFor]
  split
  · next hstable =>
    by_contra hgt
    have hself := hbelow.readers r ⟨hr, hstable, hactive⟩ e he hc (by omega)
    omega
  · omega

/-- Cleanup never takes the last version an active reader or the holder of a
published snapshot can see: in every state a run reaches, the transaction that
superseded a reclaimed version has committed, and all of them see its
versions. -/
theorem reclaimed_version_is_superseded (steps : List MgaStep)
    {state : MgaState} {request : LocalCleanupWorksetRequest}
    {m : RowVersionMetadata} (hrun : runSteps {} steps = .ok state)
    (hrequest : request.inventory = state.inventory)
    (hreclaimed : m ∈ (applyLocalCleanupWithAuthoritativeInventory
      state.registry request).reclaimedRowVersions)
    (hcommitted : m.state = .committed) :
    ∃ S ∈ state.inventory.entries,
      S.localId = m.successorTransactionLocalId ∧ S.state = .committed ∧
      (∀ R ∈ state.inventory.entries, R.state = .active ∨ R.state = .readOnlyActive →
        ∃ s, createLocalTransactionSnapshot state.inventory R.localId = .ok s ∧
          VersionsVisible S s.visibilitySnapshot) ∧
      (∀ p ∈ state.registry, p.revoked = false → ownedBy state.inventory p.descriptor = true →
        VersionsVisible S p.descriptor.visibility) := by
  have htraced := (registryTraced_of_run wellFormed_empty
    (fun d hd => absurd hd List.not_mem_nil) hrun).2
  obtain ⟨hwf, S, hS, hid, hstate, hbelow⟩ := successor_of_reclaimed hreclaimed hcommitted
  rw [hrequest] at hwf hS hbelow
  have hc := (hwf.entry S hS).committed_of_state hstate
  refine ⟨S, hS, hid, hstate, ?_, ?_⟩
  · intro R hR hactive
    have hsupported : snapshotSupportsState R.state = true := by
      rcases hactive with h | h <;> rw [h] <;> rfl
    have hoat : isActiveForOat R.state = true := by rcases hactive with h | h <;> rw [h] <;> rfl
    have hne : S.localId ≠ R.localId := by
      intro heq
      have hsame := hwf.entry_unique hS hR heq
      rw [hsame] at hstate
      rcases hactive with h | h <;> rw [hstate] at h <;>
        cases h
    obtain ⟨s, hs⟩ := createLocalTransactionSnapshot_of_supported hwf hR hsupported
    obtain ⟨_, r, hr, hrid, _, _, hvis, _⟩ := createLocalTransactionSnapshot_ok hs
    have hsame := hwf.entry_unique hr hR hrid
    refine ⟨s, hs, ?_⟩
    rw [hvis, hsame]
    exact (versionsVisible_iff hwf hS hne).mpr
      ⟨hc, within_boundary_of_belowHorizon hwf hR hoat hS hc hbelow⟩
  · intro p hp hlive howned
    obtain ⟨published, hext, hon⟩ := htraced _ (List.mem_map_of_mem hp)
    exact versionsVisible_of_published hext hon hS hc (hbelow.published p hp hlive howned)

/-- A first version that a later one supersedes. -/
def supersededVersion (e : TransactionInventoryEntry) (successor : Nat) :
    RowVersionMetadata :=
  { sampleVersion e false with
    chain := { nextVersionUuid := ⟨.row, engineUuid 102⟩, nextVersionSequence := 2 }
    successorTransactionLocalId := successor }

/-- The smallest cleanup request. -/
def plainRequest (inventory : LocalTransactionInventory)
    (rowVersions : List RowVersionMetadata) : LocalCleanupWorksetRequest :=
  { inventory, inventoryAuthoritative := true, rowVersions }

/-- A row is written and rewritten, and a third transaction publishes a
snapshot. -/
def rewriteSteps : List MgaStep :=
  [.inventory (.begin ⟨.transaction, engineUuid 1⟩ 5), .inventory (.commit 1 6),
   .inventory (.begin ⟨.transaction, engineUuid 2⟩ 7), .inventory (.commit 2 8),
   .inventory (.beginWithIsolation false true ⟨.transaction, engineUuid 3⟩ 9),
   .publish (fun _ => .ok ⟨.object, engineUuid 200⟩) 3 10]

def rewriteState : MgaState := (runSteps {} rewriteSteps).toOption.getD {}

/-- The version of the first transaction. -/
def rewrittenVersion : RowVersionMetadata :=
  supersededVersion
    { identity := ⟨1, ⟨.transaction, engineUuid 1⟩, .localNode⟩
      state := .committed
      commitSequence := 1 } 2

theorem rewritten_version_is_superseded :
    rewriteState.registry.length = 1 ∧ ∃ S ∈ rewriteState.inventory.entries, S.localId = 2 ∧
        S.state = .committed ∧ ∀ p ∈ rewriteState.registry, p.revoked = false →
          ownedBy rewriteState.inventory p.descriptor = true →
          VersionsVisible S p.descriptor.visibility := by
  have hrun : runSteps {} rewriteSteps = .ok rewriteState := by decide +kernel
  have hreclaimed : rewrittenVersion ∈
      (applyLocalCleanupWithAuthoritativeInventory rewriteState.registry
        (plainRequest rewriteState.inventory [rewrittenVersion])).reclaimedRowVersions := by
    decide +kernel
  obtain ⟨S, hS, hid, hstate, _, hpublished⟩ :=
    reclaimed_version_is_superseded rewriteSteps hrun rfl hreclaimed rfl
  exact ⟨by decide +kernel, S, hS, hid, hstate, hpublished⟩

end ScratchBird.Mga
