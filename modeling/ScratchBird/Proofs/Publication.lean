import ScratchBird.Proofs.Visibility

/-!
# Where a published snapshot comes from

A descriptor in the registry was computed from some earlier inventory, and
nothing in it records which. The invariant of runs with publications is that
such an inventory exists: the present one extends it, and every field the
cleanup decision depends on is a function of it.
-/

namespace ScratchBird.Mga

open Lib

variable {snapshots : List Nat} {h : LocalTransactionHorizons}
  {generate : Nat → Except DiagnosticRecord TypedUuid} {d : SnapshotVectorDescriptor}
  {state state' : MgaState} {step : MgaStep} {registry registry' : SnapshotRegistry}
  {inventory : LocalTransactionInventory}

/-- The descriptor is the one publication computes from this inventory. -/
structure PublishedOn (published : LocalTransactionInventory)
    (d : SnapshotVectorDescriptor) : Prop where
  owner : ∃ r ∈ published.entries, r.localId = d.owningTransaction ∧
    d.visibleCommittedHighWatermark =
      visibleHighWatermark published (commitBoundaryFor published r) ∧
    d.activeExcludedLocalTransactionIds =
      activeExclusions published (commitBoundaryFor published r) ∧
    d.inDoubtExcludedLocalTransactionIds =
      inDoubtExclusions published (commitBoundaryFor published r)
  interesting : d.oldestInterestingTransaction = oldestInteresting published
  retention : d.retentionHorizonTransaction = snapshotRetentionBoundary d

/-- Every descriptor of the registry was published on an inventory the present
one extends. -/
def RegistryTraced (state : MgaState) : Prop :=
  ∀ d ∈ state.registry.map (·.descriptor), ∃ published,
    Extends published state.inventory ∧ PublishedOn published d

/-! ## Publication -/

theorem computeLocalTransactionHorizons_ok
    (hok : computeLocalTransactionHorizons inventory snapshots = .ok h) :
    WellFormed inventory ∧ projectValidatedLocalHorizons inventory snapshots = .ok h := by
  unfold computeLocalTransactionHorizons at hok
  split at hok
  · cases hok
  next hvalid =>
  split at hok
  · cases hok
  next horizons hproject =>
  cases hok
  exact ⟨validateStructure_eq_none_iff.mp hvalid, hproject⟩

/-- The horizon projection accepts when no snapshot horizon is invalid or in the
future, and the snapshots lower the third horizon. -/
theorem lowerBySnapshotHorizons_ok {next ost result : Nat}
    (h : lowerBySnapshotHorizons next ost snapshots = .ok result) :
    result = snapshots.foldl min ost := by
  induction snapshots generalizing ost with
  | nil =>
    cases h
    rfl
  | cons horizon rest ih =>
    unfold lowerBySnapshotHorizons at h
    rw [guard_eq_ok_iff, guard_eq_ok_iff] at h
    exact ih h.2.2

theorem projectValidatedLocalHorizons_ok
    (hok : projectValidatedLocalHorizons inventory snapshots = .ok h) :
    h.oldestInterestingTransaction = oldestInteresting inventory ∧
      h.oldestActiveTransaction = oldestActive inventory ∧
      h.oldestSnapshotTransaction = lowerByStableReaders inventory (snapshots.foldl min
          (if snapshots.isEmpty then oldestActive inventory
            else inventory.nextLocalTransactionId)) := by
  obtain ⟨ost, host, heq⟩ := bind_eq_ok_iff.mp hok
  rw [← lowerBySnapshotHorizons_ok host]
  cases heq
  exact ⟨rfl, rfl, rfl⟩

theorem publishWithGeneratedIdentity_ok {d' : SnapshotVectorDescriptor} {remaining attempt : Nat}
    (h : publishWithGeneratedIdentity generate registry d remaining attempt = .ok (d', registry')) :
    ∃ uuid, d' = { d with
        snapshotUuid := uuid, inventoryAuthoritative := true, complete := true } ∧
      lookup PublishedSnapshotVector.key uuid.value registry = none ∧
      registry' = registry.orderedInsert
        (fun a b => a.key.bytes ≤ b.key.bytes) { descriptor := d' } := by
  induction remaining generalizing attempt with
  | zero => cases h
  | succ remaining ih =>
    unfold publishWithGeneratedIdentity at h
    split at h
    · cases h
    next uuid _ =>
    split at h
    · exact ih h
    next hunused =>
    obtain ⟨_, h⟩ := guard_eq_ok_iff.mp h
    cases h
    exact ⟨uuid, rfl, Option.not_isSome_iff_eq_none.mp hunused, rfl⟩

theorem publishStatementStableSnapshotVector_ok {owner millis : Nat}
    (h : publishStatementStableSnapshotVector generate registry inventory owner
      millis = .ok (d, registry')) :
    PublishedOn inventory d ∧ d.owningTransaction = owner ∧
      lookup PublishedSnapshotVector.key d.snapshotUuid.value registry = none ∧
      registry' = registry.orderedInsert
        (fun a b => a.key.bytes ≤ b.key.bytes) { descriptor := d } := by
  unfold publishStatementStableSnapshotVector at h
  split at h
  · cases h
  simp only [snapshotVectorError] at h
  obtain ⟨_, h⟩ := guard_eq_ok_iff.mp h
  split at h
  · cases h
  rw [guard_eq_ok_iff, guard_eq_ok_iff] at h
  obtain ⟨_, _, h⟩ := h
  obtain ⟨established, hest, h⟩ := bind_eq_ok_iff.mp h
  obtain ⟨horizons, hhor, h⟩ := bind_eq_ok_iff.mp h
  obtain ⟨uuid, hd, hunused, hreg⟩ := publishWithGeneratedIdentity_ok h
  obtain ⟨_, r, hr, hid, _, _, hvis, hmark, -⟩ := createLocalTransactionSnapshot_ok hest
  obtain ⟨_, hproject⟩ := computeLocalTransactionHorizons_ok hhor
  refine ⟨⟨⟨r, hr, ?_⟩, ?_, ?_⟩, by rw [hd]; rfl, by rwa [hd], hreg⟩
  · rw [hd]
    refine ⟨hid, hmark, ?_, ?_⟩
    · show established.visibilitySnapshot.activeExcludedLocalTransactionIds = _
      rw [hvis]
      rfl
    · show established.visibilitySnapshot.inDoubtExcludedLocalTransactionIds = _
      rw [hvis]
      rfl
  · rw [hd]
    exact (projectValidatedLocalHorizons_ok hproject).1
  · rw [hd]
    rfl

/-! ## The registry calls -/

theorem descriptors_modify {uuid : Uuid} {g : PublishedSnapshotVector → PublishedSnapshotVector}
    (hg : ∀ p, (g p).descriptor = p.descriptor) :
    (modify PublishedSnapshotVector.key uuid g registry).map (·.descriptor) =
      registry.map (·.descriptor) := map_modify fun p _ _ => hg p

/-- No registry call but publication brings in a descriptor. -/
theorem descriptors_of_apply (h : step.apply state = .ok state') :
    (∃ op, step = .inventory op) ∨
      (∃ generate owner millis, step = .publish generate owner millis) ∨
      (state'.inventory = state.inventory ∧ ∀ d ∈ state'.registry.map (·.descriptor),
          d ∈ state.registry.map (·.descriptor)) := by
  cases step with
  | inventory op => exact .inl ⟨op, rfl⟩
  | publish generate owner millis => exact .inr (.inl ⟨generate, owner, millis, rfl⟩)
  | retain uuid =>
    cases h
    refine .inr (.inr ⟨rfl, fun d hd => ?_⟩)
    unfold retainPublishedSnapshotVector at hd
    split at hd
    · exact hd
    · rwa [descriptors_modify (fun p => by split <;> rfl)] at hd
  | releasePin uuid =>
    cases h
    refine .inr (.inr ⟨rfl, fun d hd => ?_⟩)
    have hsub := (List.filter_sublist.map _).subset hd
    rwa [descriptors_modify (by intro p; rfl)] at hsub
  | release uuid =>
    cases h
    refine .inr (.inr ⟨rfl, fun d hd => ?_⟩)
    unfold releasePublishedSnapshotVector at hd
    split at hd
    · exact hd
    · have hsub := (List.filter_sublist.map _).subset hd
      rwa [descriptors_modify (by intro p; rfl)] at hsub
  | revoke uuid =>
    cases h
    refine .inr (.inr ⟨rfl, fun d hd => ?_⟩)
    unfold revokePublishedSnapshotVector at hd
    split at hd
    · exact hd
    · rwa [descriptors_modify (by intro p; rfl)] at hd
  | revokeForTransaction uuid owner =>
    cases h
    refine .inr (.inr ⟨rfl, fun d hd => ?_⟩)
    unfold revokePublishedSnapshotVectorsForTransaction at hd
    split at hd
    · exact hd
    · obtain ⟨q, hq, rfl⟩ := List.mem_map.mp hd
      obtain ⟨p, hp, rfl⟩ := List.mem_map.mp hq
      refine List.mem_map.mpr ⟨p, hp, ?_⟩
      split <;> rfl

/-! ## Runs -/

theorem registryTraced_apply (hwf : WellFormed state.inventory)
    (htraced : RegistryTraced state) (h : step.apply state = .ok state') :
    WellFormed state'.inventory ∧ RegistryTraced state' := by
  rcases descriptors_of_apply h with
    ⟨op, rfl⟩ | ⟨generate, owner, millis, rfl⟩ | ⟨hinv, hsub⟩
  · obtain ⟨after, hafter, rfl⟩ := map_eq_ok_iff.mp h
    have hstep := (evolves_apply hwf hafter).extends
    refine ⟨hstep.wfAfter, fun d hd => ?_⟩
    obtain ⟨published, hext, hon⟩ := htraced d hd
    exact ⟨published, hext.trans hstep, hon⟩
  · obtain ⟨⟨d', registry'⟩, hpub, rfl⟩ := map_eq_ok_iff.mp h
    obtain ⟨hon, -, -, hreg⟩ := publishStatementStableSnapshotVector_ok hpub
    refine ⟨hwf, fun d hd => ?_⟩
    obtain ⟨p, hp, rfl⟩ := List.mem_map.mp hd
    rw [hreg, List.mem_orderedInsert] at hp
    rcases hp with rfl | hp
    · exact ⟨state.inventory, Extends.refl hwf, hon⟩
    · exact htraced _ (List.mem_map_of_mem hp)
  · rw [RegistryTraced, hinv]
    exact ⟨hwf, fun d hd => htraced d (hsub d hd)⟩

theorem registryTraced_of_run {steps : List MgaStep} (hwf : WellFormed state.inventory)
    (htraced : RegistryTraced state) (h : runSteps state steps = .ok state') :
    WellFormed state'.inventory ∧ RegistryTraced state' := by
  induction steps generalizing state with
  | nil =>
    cases h
    exact ⟨hwf, htraced⟩
  | cons step steps ih =>
    obtain ⟨mid, hmid, hrest⟩ := bind_eq_ok_iff.mp h
    obtain ⟨hwf', htraced'⟩ := registryTraced_apply hwf htraced hmid
    exact ih hwf' htraced' hrest

end ScratchBird.Mga
