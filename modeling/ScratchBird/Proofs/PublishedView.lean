import ScratchBird.Proofs.RetentionGaps
import ScratchBird.Storage.CowStore

/-!
# What a published snapshot vector sees

A published descriptor carries the watermark and the two exclusion lists of its
owner's snapshot, but not the commit boundary they were computed with. The
reader of the row store that holds a pin on it builds its snapshot from those
alone. Nothing is lost. A commit that passes the watermark has a number from
before the publication, and every transaction of that time that had not resolved,
or had committed past the boundary, is on one of the lists. So what passes the
watermark and the lists had committed within the boundary, and a history never
takes that back.
-/

namespace ScratchBird.Storage

open Lib Mga

variable {κ : Type} {published inventory : LocalTransactionInventory}
  {e r : TransactionInventoryEntry} {d : SnapshotVectorDescriptor} {m : RowVersionMetadata}

/-! ## The boundary is in the lists -/

/-- A commit of a later inventory that passes the watermark and the lists of a
snapshot is within the boundary of the snapshot. -/
theorem within_boundary_of_not_listed {boundary : Nat}
    (hext : Extends published inventory) (he : e ∈ inventory.entries)
    (hc : hasCommittedInventoryOutcome e = true)
    (hmark : e.localId ≤ visibleHighWatermark published boundary)
    (hactive : e.localId ∉ activeExclusions published boundary)
    (hdoubt : e.localId ∉ inDoubtExclusions published boundary) : e.commitSequence ≤ boundary := by
  have hvalid := (hext.wfAfter.entry e he).localId_valid
  rw [localIdValid, bne_iff_ne] at hvalid
  have hbelow : e.localId < published.nextLocalTransactionId := by
    rcases le_greatestOf_iff.mp hmark with hzero | ⟨x, hx, -, hle⟩
    · exact absurd (Nat.le_zero.mp hzero) hvalid
    · exact hle.trans_lt (hext.wfBefore.entry x hx).id_lt
  rcases hext.entry e he with ⟨old, hold, hid, hextends⟩ | ⟨hge, -⟩
  · rw [← hid] at hactive hdoubt
    obtain ⟨hterminal, hwithin⟩ := resolved_of_not_listed hext.wfBefore hold hactive hdoubt
    obtain ⟨hsame, -, hsequence⟩ := hextends.final hterminal
    rw [← hsequence]
    refine hwithin ?_
    rw [hasCommittedInventoryOutcome, hsame]
    exact hc
  · exact absurd hbelow (Nat.not_lt.mpr hge)

/-! ## The same view -/

/-- For a committed version the lists decide what the boundary would. -/
theorem evaluateCommitted_published {reader : Nat}
    (hext : Extends published inventory) (he : e ∈ inventory.entries)
    (hc : hasCommittedInventoryOutcome e = true)
    (hcreator : m.identity.creatorTransaction.localId = e.localId)
    (hsequence : m.creatorCommitSequence = e.commitSequence)
    (hmark : d.visibleCommittedHighWatermark =
      visibleHighWatermark published (commitBoundaryFor published r))
    (hactive : d.activeExcludedLocalTransactionIds =
      activeExclusions published (commitBoundaryFor published r))
    (hdoubt : d.inDoubtExcludedLocalTransactionIds =
      inDoubtExclusions published (commitBoundaryFor published r)) :
    evaluateCommitted m d.visibility =
      evaluateCommitted m (visibilitySnapshotFor published r reader) := by
  have hpos := ((hext.wfAfter.entry e he).committed hc).1
  have hwithin := @within_boundary_of_not_listed published inventory e
    (commitBoundaryFor published r) hext he hc
  simp only [evaluateCommitted, SnapshotVectorDescriptor.visibility,
    visibilitySnapshotFor, hcreator, hsequence, hmark, hactive, hdoubt, true_or,
    true_and, Bool.false_eq_true, false_and, if_false]
  split
  · rfl
  next hle =>
  rw [if_neg (Nat.ne_of_gt (Nat.zero_lt_of_lt hpos))]
  by_cases hlisted :
      e.localId ∈ activeExclusions published (commitBoundaryFor published r) ∨
      e.localId ∈ inDoubtExclusions published (commitBoundaryFor published r)
  · rw [if_pos hlisted, ite_self]
  · obtain ⟨hnotActive, hnotDoubt⟩ := not_or.mp hlisted
    rw [if_neg (Nat.not_lt.mpr (hwithin (Nat.not_lt.mp hle) hnotActive hnotDoubt))]

/-- The snapshot the row store reads by, given a pin on a descriptor. -/
theorem readSnapshot_pinned {request : PhysicalMgaCowReadRequest}
    {s : VisibilitySnapshot} (hpin : request.snapshotPin = some (.ok d))
    (hreader : validateReader request = none)
    (h : readSnapshot inventory request = .ok s) : s = d.visibility := by
  rw [validateReader] at hreader
  simp only [guard_eq_none_iff, hpin, Option.isSome_some, true_and, not_or] at hreader
  obtain ⟨-, ⟨-, -, hdefault⟩, -⟩ := hreader
  rw [readSnapshot, hpin] at h
  obtain ⟨-, h⟩ := guard_eq_ok_iff.mp h
  rw [← Except.ok.inj h, not_not.mp hdefault]
  rfl

/-- A published descriptor is as good as the snapshot it was made from: in every
later inventory of a history, what the row store reads by under a pin on it
judges every version as the owner's own snapshot of the publication does. -/
theorem published_view_is_owners_view {generate : Nat → Except DiagnosticRecord TypedUuid}
    {registry registry' : SnapshotRegistry} {owner millis n : Nat}
    {I : Nat → LocalTransactionInventory} {established : TransactionSnapshotResult}
    (hpublish : publishStatementStableSnapshotVector generate registry (I 0)
      owner millis = .ok (d, registry'))
    (hsnapshot : createLocalTransactionSnapshot (I 0) owner = .ok established) (hchain : ∀ k < n,
      validateLocalTransactionInventoryEvolution (I k) (I (k + 1)) = none) :
    (∀ request s, request.snapshotPin = some (.ok d) →
      validateReader request = none → readSnapshot (I n) request = .ok s → s = d.visibility) ∧
    ∀ creator ∈ (I n).entries, ∀ row : RowDataRecord κ,
      observeVersionEffectVisibility (metadataForRow row creator) d.visibility =
        observeVersionEffectVisibility (metadataForRow row creator)
          established.visibilitySnapshot := by
  refine ⟨fun request s => readSnapshot_pinned, fun creator hcreator row => ?_⟩
  obtain ⟨hon, howner, -⟩ := publishStatementStableSnapshotVector_ok hpublish
  obtain ⟨r, hr, hid, hmark, hactive, hdoubt⟩ := hon.owner
  obtain ⟨hwf, r', hr', hid', -, -, hvisibility, -⟩ := createLocalTransactionSnapshot_ok hsnapshot
  obtain rfl : r' = r := hwf.entry_unique hr' hr (hid'.trans (howner.symm.trans hid.symm))
  have hext : Extends (I 0) (I n) := by
    rcases Nat.eq_zero_or_pos n with rfl | hn
    · exact Extends.refl hwf
    · exact extends_of_chain hn hchain (Nat.zero_le n) (Nat.le_refl n)
  rw [hvisibility]
  refine evaluate_congr howner rfl fun hcommitted => ?_
  exact evaluateCommitted_published hext hcreator
    (hasCommittedInventoryOutcome_iff.mpr hcommitted) rfl rfl hmark hactive hdoubt

/-- One commit lies behind the publication, one follows it. -/
def lateCommitHistory : Nat → LocalTransactionInventory
  | 0 => inventoryAfter (lateCommitRun.take 4)
  | _ => inventoryAfter (lateCommitRun.take 5)

def pinnedRequest (d : SnapshotVectorDescriptor) : PhysicalMgaCowReadRequest :=
  { readerIdentity := ⟨3, ⟨.transaction, engineUuid 3⟩, .localNode⟩, snapshotPin := some (.ok d) }

theorem lateCommit_published_view : ∃ d registry' established, publishStatementStableSnapshotVector
        (fun _ => .ok ⟨.object, engineUuid 9⟩) [] (lateCommitHistory 0) 3 9 =
      .ok (d, registry') ∧
    createLocalTransactionSnapshot (lateCommitHistory 0) 3 = .ok established ∧
    readSnapshot (lateCommitHistory 1) (pinnedRequest d) = .ok d.visibility ∧
    ∀ creator ∈ (lateCommitHistory 1).entries, ∀ row : RowDataRecord Unit,
      observeVersionEffectVisibility (metadataForRow row creator) d.visibility =
        observeVersionEffectVisibility (metadataForRow row creator)
          established.visibilitySnapshot :=
  ⟨_, _, _, rfl, rfl, rfl,
    (@published_view_is_owners_view Unit _ (fun _ => .ok ⟨.object, engineUuid 9⟩)
      [] _ 3 9 1 lateCommitHistory _ rfl rfl (by decide)).2⟩

end ScratchBird.Storage
