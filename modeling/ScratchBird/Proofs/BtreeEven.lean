import ScratchBird.Proofs.BtreeRoom

/-!
# Room for the longest key

A deletion publishes the leaves it has changed before the fences above follow.
A fence that is replaced by a longer one may not fit, and then the leaves are
changed and the call is refused. A deletion adds no fence to a page and no cell to
a leaf that is not one more than it lost, so it is enough that every page has room
for the longest live key as often as it has live cells: nothing refuses after the
first page is published. Where all live keys have one length every page is like
that.
-/

namespace ScratchBird.Btree

open Lib List
open Index (Bytes)

variable {cells us vs cy cz : List IndexBtreeCell} {width height : Nat}
  {tree t : IndexBtreePhysicalTree} {row X Y leaves A B A₀ B₀ : Level} {levels : List Level}
  {U old V : List Listing} {e₁ e₂ : Listing} {holder n : UInt64} {path rest : List UInt64}
  {p q child kept c d y x' y' m z leaf removed : IndexBtreePageBody}
  {result : IndexBtreePhysicalDeleteResult} {cell : IndexBtreeCell} {fy fz : UInt32}

theorem cellsBytes_le (h : ∀ c ∈ cells, c.bytes ≤ width) :
    cellsBytes cells ≤ cells.length * width := by
  show (cells.map IndexBtreeCell.bytes).sum ≤ _
  have hsum := List.sum_le_card_nsmul _ width (forall_mem_map.mpr h)
  rwa [length_map] at hsum

/-! ## Fences that may grow -/

/-- The levels have room for fences of `width` bytes in the place of theirs. -/
structure AmpleLevels (width room : Nat) (levels : List Level) : Prop where
  bytes : ∀ p ∈ levels.flatten, ∀ c ∈ p.cells, c.bytes ≤ width
  room : ∀ p ∈ levels.flatten, p.cells.length * width ≤ room

/-- A fence the levels above can take in the place of another. -/
def AmpleFence (width : Nat) (child : IndexBtreePageBody) : Prop :=
  CellFits true (fenceCellForPage child) ∧ (fenceCellForPage child).bytes ≤ width

/-- A changed page's fence is carried to the root without a refusal. -/
def CarriedThrough (width : Nat) (levels : List Level) :
    Prop :=
  ∀ {child : IndexBtreePageBody} {tree : IndexBtreePhysicalTree} {height : Nat}
    {U V : List Listing} {e : Listing} {holder : UInt64} {path : List UInt64}
    {result : IndexBtreePhysicalDeleteResult}, 0 < height → Sound tree →
    Stale tree height levels U [e] [(fenceCellForPage child, holder)] V holder path →
    e.1.childPageNumber = child.pageNumber →
    (levels.isEmpty = false → AmpleFence width child) →
    AmpleLevels width (cellCapacity tree.pageSize) levels →
    Succeeds (updateParentAfterLeafMutation path child result) tree

theorem AmpleLevels.upper {room : Nat} (h : AmpleLevels width room (row :: levels)) :
    AmpleLevels width room levels :=
  ⟨fun p hp => h.bytes p (mem_append_right _ hp), fun p hp => h.room p (mem_append_right _ hp)⟩

/-- The parent takes a fence in the place of others. It has no more fences than
before, and its own is no longer than the longest of them. -/
theorem Stale.settle_succeeds (hthrough : CarriedThrough width levels)
    (hpos : 0 < height) (hsound : Sound tree) (h : Stale tree height (row :: levels) U old
      [(fenceCellForPage child, holder)] V holder path)
    (hf : Focus row levels U old V path X p Y us vs rest)
    (hq : q = p.refenced tree.pageSize us [(fenceCellForPage child, holder)] vs)
    (hfence : AmpleFence width child)
    (hample : AmpleLevels width (cellCapacity tree.pageSize) (row :: levels))
    (hcollapse : Buildable q tree.pageSize → q.pageKind = .root → q.cells.length = 1 →
      Succeeds (collapseRootToOnlyChild q result) (store tree q)) :
    Succeeds (settleParent q result (updateParentAfterLeafMutation rest))
      tree := by
  have hcells : q.cells = us ++ ([fenceCellForPage child] ++ vs) := by
    rw [hq]
    rfl
  have hshape : Shaped q tree.pageSize := by
    rw [hq]
    exact hf.shaped h hpos (forall_mem_singleton.mpr hfence.1)
  have hwidth : ∀ c ∈ q.cells, c.bytes ≤ width := by
    rw [hq]
    exact hf.forall_cells (hample.bytes p (mem_append_left _ hf.mem))
      (forall_mem_singleton.mpr hfence.2)
  have hfewer : q.cells.length ≤ p.cells.length := by
    have hold := length_pos_iff.mpr h.held.1
    rw [hcells, hf.cells]
    simp only [length_append, length_map, length_singleton]
    omega
  have hb : Buildable q tree.pageSize := by
    refine hshape.buildable ((cellsBytes_le hwidth).trans ?_)
    exact (Nat.mul_le_mul_right width hfewer).trans (hample.room p (mem_append_left _ hf.mem))
  have hlive : liveCells q = q.cells := by
    refine liveCells_of_undeleted ?_
    rw [hq]
    exact hf.live h
  have hne : liveCells q ≠ [] := by
    rw [hlive, hq]
    exact Focus.refenced_ne_nil h
  obtain ⟨hsound', hstale⟩ := h.next_level hsound hf hq hb
  have hclimb : Succeeds (updateParentAfterLeafMutation rest q result) (store tree q) := by
    refine hthrough (Nat.succ_pos height) hsound' hstale ?_ (fun _ => ⟨?_, ?_⟩) hample.upper
    · rw [hq]
      rfl
    · exact fence_fits hshape.fits.number hshape.fits.cells hne
    · refine fence_bytes (· ≤ width) ?_ hne
      rw [hlive]
      exact hwidth
  by_cases hroot : q.pageKind = .root ∧ q.cells.length = 1 ∧ q.treeLevel > 0
  · obtain ⟨r, t, hr⟩ := hcollapse hb hroot.1 hroot.2.1
    exact ⟨r, t, returns_settleParent.mpr ⟨hb, by rwa [if_pos hroot]⟩⟩
  · obtain ⟨r, t, hr⟩ := hclimb
    exact ⟨r, t, returns_settleParent.mpr ⟨hb, by rwa [if_neg hroot]⟩⟩

/-- The induction is on the levels. -/
theorem carriedThrough (levels : List Level) : CarriedThrough width levels := by
  induction levels with
  | nil =>
    intro child tree height U V e holder path result _ _ h _ _ _
    have hpath : path = [] := h.path
    rw [hpath]
    exact succeeds_pure
  | cons row levels ih =>
    intro child tree height U V e holder path result hpos hsound h hnumber hfence hample
    obtain ⟨X, p, Y, us, vs, rest, hf, hholder⟩ := h.focus
    have hsettle : Succeeds (settleParent _ result (updateParentAfterLeafMutation rest)) tree :=
      h.settle_succeeds ih hpos hsound hf rfl (hfence rfl) hample
        fun _ hkind hone => absurd ⟨hkind, hone⟩ (hf.keeps_root h rfl)
    obtain ⟨r, t, hr⟩ := hsettle
    exact ⟨r, t, (updateParent_cons h hf hnumber).mpr hr⟩

/-- The only child of a root, a leaf, can be stored in its place. -/
theorem collapseRootToOnlyChild_succeeds (hq : OnlyChild tree levels U V kept q)
    (hkept : Stored (store tree q) kept) (hlevel : kept.treeLevel = 0)
    (hleaf : isInternalLike kept = false) :
    Succeeds (collapseRootToOnlyChild q result) (store tree q) := by
  refine ⟨_, _, (returns_collapseRootToOnlyChild hq hkept hlevel).mpr ⟨?_, rfl, rfl⟩⟩
  have hb := hkept.built
  have hnumber := hq.storable.built.fits.number
  rw [hq.number] at hnumber
  refine ⟨hb.index, ⟨hnumber, rfl, ?_, hb.fits.ordered⟩, hb.header, hb.room⟩
  have hcells := hb.fits.cells
  rw [hleaf] at hcells
  have hsame : isInternalLike (kept.asRoot tree.pageSize tree.rootPageNumber) =
      false := by
    simp [isInternalLike, IndexBtreePageBody.asRoot, IndexBtreePageBody.settled, hlevel]
  rw [hsame]
  exact hcells

/-- Of two neighbours one is gone, and its fence is taken away. -/
theorem removeChildFence_succeeds (hpos : 0 < height) (hsound : Sound tree)
    (h : Stale tree height levels U [e₁, e₂] [(fenceCellForPage kept, holder)] V holder path)
    (h₁ : e₁.1.childPageNumber = kept.pageNumber)
    (h₂ : e₂.1.childPageNumber = n) (hfence : AmpleFence width kept)
    (hample : AmpleLevels width (cellCapacity tree.pageSize) levels)
    (hkept : ∀ q, OnlyChild tree levels U V kept q → Stored (store tree q) kept)
    (hlevel : kept.treeLevel = 0) (hleaf : isInternalLike kept = false) :
    Succeeds (removeChildFenceAndMaybeCollapse path kept n result) tree := by
  obtain ⟨row, upper, rfl⟩ := h.two_below
  obtain ⟨X, p, Y, us, vs, rest, hf, hholder⟩ := h.focus
  have hsettle : Succeeds (settleParent _ result (updateParentAfterLeafMutation rest)) tree :=
    h.settle_succeeds (carriedThrough upper) hpos hsound hf rfl hfence hample
      fun hb hkind hone => by
        have hq := h.only_child hf rfl hkind hone hb
        exact collapseRootToOnlyChild_succeeds hq (hkept _ hq) hlevel hleaf
  obtain ⟨r, t, hr⟩ := hsettle
  exact ⟨r, t, (removeChildFence_cons h hf h₁ h₂).mpr hr⟩

/-! ## Leaves -/

section Leaves

variable {root : Nat} {x : IndexBtreePageBody} {free : UInt32}

/-- No fence is longer than the longest live key. -/
theorem Above.fences_le {root : UInt64} (h : Above root height (row.map (·.up)) levels)
    (hfilled : levels.isEmpty = false → ∀ p ∈ row, liveCells p ≠ [])
    (hwidth : ∀ k ∈ row.flatMap liveCells, k.bytes ≤ width) :
    ∀ p ∈ levels.flatten, ∀ c ∈ p.cells, c.bytes ≤ width := by
  cases levels with
  | nil => exact forall_mem_nil _
  | cons upper levels =>
    refine Above.cells_bytes (· ≤ width) h (hfilled rfl) ?_
    exact fun p hp k hk => hwidth k (mem_flatMap.mpr ⟨p, hp, hk⟩)

/-- Pages with room for cells of `width` bytes as often as they have live cells, of
which none takes more. -/
structure Ample (tree : IndexBtreePhysicalTree) (leaves : Level) (levels : List Level)
    (width : Nat) : Prop where
  bytes : ∀ k ∈ leaves.flatMap liveCells, k.bytes ≤ width
  room : ∀ p ∈ leaves ++ levels.flatten,
    (liveCells p).length * width ≤ cellCapacity tree.pageSize

theorem Above.live {root : UInt64} {entries : List Listing}
    (h : Above root height entries levels) :
    ∀ p ∈ levels.flatten, ∀ c ∈ p.cells, c.deleted = false := by
  induction levels generalizing height entries with
  | nil => exact forall_mem_nil _
  | cons row levels ih =>
    obtain ⟨-, hfits, habove⟩ := h
    exact forall_mem_append.mpr ⟨hfits.live, ih habove⟩

theorem Arranged.ampleLevels (h : Arranged tree leaves levels)
    (hample : Ample tree leaves levels width) :
    AmpleLevels width (cellCapacity tree.pageSize) levels := by
  refine ⟨h.tower.above.fences_le h.leaves.filled hample.bytes, fun p hp => ?_⟩
  have hroom := hample.room p (mem_append_right _ hp)
  rwa [liveCells_of_undeleted (h.tower.above.live p hp)] at hroom

/-- Live keys of one length leave room for one another. -/
theorem Arranged.ample_of_even (h : Arranged tree leaves levels)
    (heven : ∀ k ∈ leaves.flatMap liveCells, k.bytes = width) : Ample tree leaves levels width := by
  have hleaves : ∀ p ∈ leaves, ∀ k ∈ liveCells p, width ≤ k.bytes :=
    fun p hp k hk => (heven k (mem_flatMap.mpr ⟨p, hp, hk⟩)).ge
  have hall : ∀ p ∈ leaves ++ levels.flatten, ∀ k ∈ liveCells p, width ≤ k.bytes := by
    refine forall_mem_append.mpr ⟨hleaves, fun p hp k hk => ?_⟩
    have hne : levels.isEmpty = false := by
      cases levels with
      | nil => cases hp
      | cons row levels => rfl
    exact Above.cells_bytes (width ≤ ·) h.tower.above (h.leaves.filled hne) hleaves p hp k
      (mem_filter.mp hk).1
  refine ⟨fun k hk => (heven k hk).le, fun p hp => ?_⟩
  have hsum := List.card_nsmul_le_sum _ width (forall_mem_map.mpr (hall p hp))
  rw [length_map] at hsum
  exact hsum.trans ((cellsBytes_sublist List.filter_sublist).trans
    (h.tower.stored p hp).built.cells_le)

/-- The fence of a filled leaf. -/
theorem ampleFence (hb : Buildable d tree.pageSize) (hne : liveCells d ≠ [])
    (hwidth : ∀ k ∈ liveCells d, k.bytes ≤ width) : AmpleFence width d :=
  ⟨fence_fits hb.fits.number hb.fits.cells hne, fence_bytes (· ≤ width) hwidth hne⟩

theorem Refilled.succeeds (h : Refilled tree leaves levels A c d B path)
    (hb : Buildable d tree.pageSize) (hwidth : ∀ k ∈ liveCells d, k.bytes ≤ width)
    (hlevels : AmpleLevels width (cellCapacity tree.pageSize) levels) :
    Succeeds (updateParentAfterLeafMutation path d result) (store tree d) := by
  refine carriedThrough levels Nat.one_pos h.written.sound h.stale h.number ?_ hlevels
  exact fun htop => ampleFence hb (h.fits.filled htop d (by simp)) hwidth

theorem Exchanged.succeeds (h : Exchanged tree leaves levels A x y x' y' B path)
    (hbx : Buildable x' tree.pageSize) (hby : Buildable y' tree.pageSize)
    (htop : levels.isEmpty = false) (hfilled : liveCells y ≠ [])
    (hwidth : ∀ k ∈ (A ++ x' :: y :: y' :: B).flatMap liveCells, k.bytes ≤ width)
    (hlevels : AmpleLevels width (cellCapacity tree.pageSize) levels) :
    Succeeds (exchange path x' y' result) tree := by
  have hmem : ∀ p ∈ A ++ x' :: y :: y' :: B, ∀ k ∈ liveCells p, k.bytes ≤ width :=
    fun p hp k hk => hwidth k (mem_flatMap.mpr ⟨p, hp, hk⟩)
  have hrow := h.fits.filled htop
  have hby' : Buildable y' (store tree x').pageSize := hby
  have hfirst : Succeeds (updateParentAfterLeafMutation path x' result)
      (store (store tree x') y') :=
    carriedThrough levels Nat.one_pos h.written.sound h.left h.numbers.1
      (fun _ => ampleFence hbx (hrow x' (by simp)) (hmem x' (by simp))) hlevels
  obtain ⟨r, t, hr⟩ := hfirst
  obtain ⟨levels₁, hn⟩ := carried levels Nat.one_pos h.written.sound h.left h.numbers.1 hr
  suffices hnext : AmpleLevels width (cellCapacity tree.pageSize) levels₁ by
    have hsize : t.pageSize = tree.pageSize := hn.written.setup.pageSize
    rw [← hsize] at hnext
    obtain ⟨r', t', hr'⟩ := hr.bind (carriedThrough levels₁ Nat.one_pos
      hn.written.sound (h.right hn) h.numbers.2
      (fun _ => ampleFence hby (hrow y' (by simp)) (hmem y' (by simp))) hnext)
    exact ⟨r', t', returns_stagePageForDelete_bind.mpr
      ⟨hbx, returns_stagePageForDelete_bind.mpr ⟨hby', hr'⟩⟩⟩
  have habove := hn.above
  rw [listed_under h.parents.1, ← map_singleton, ← map_append, ← map_append] at habove
  refine ⟨habove.fences_le (fun _ p hp => ?_) (fun k hk => ?_), fun q hq => ?_⟩
  · simp only [mem_append, mem_cons, not_mem_nil, or_false] at hp hrow
    rcases hp with hp | rfl | rfl | hp
    · exact hrow p (.inl hp)
    · exact hrow p (.inr (.inl rfl))
    · exact hfilled
    · exact hrow p (.inr (.inr (.inr hp)))
  · refine hwidth k ?_
    simp only [flatMap_append, flatMap_cons, mem_append] at hk ⊢
    tauto
  · obtain ⟨p, hp, hfewer⟩ := hn.counts q hq
    exact (Nat.mul_le_mul_right width hfewer).trans (hlevels.room p hp)

theorem Merged.succeeds (h : Merged tree leaves levels A x y m B path)
    (hb : Buildable m tree.pageSize) (hleaf : isInternalLike m = false)
    (htop : levels.isEmpty = false) (hwidth : ∀ k ∈ liveCells m, k.bytes ≤ width)
    (hlevels : AmpleLevels width (cellCapacity tree.pageSize) levels) :
    Succeeds (removeChildFenceAndMaybeCollapse path m y.pageNumber result)
      (storeAll tree (m :: (relinked tree.pageSize x.pageNumber B).take 1)) := by
  rw [← @storeAll_pageSize tree (m :: (relinked tree.pageSize x.pageNumber B).take 1)] at hlevels
  refine removeChildFence_succeeds Nat.one_pos h.written.sound h.stale h.number rfl
    (ampleFence hb (h.fits.filled htop m (by simp)) hwidth) hlevels ?_
    (h.fits.level m (by simp)) hleaf
  intro q hq
  have hstored := h.written.stored
  have hnumbers := h.written.numbers
  obtain ⟨hA, hB, -⟩ := h.alone hq
  rw [hA] at hstored hnumbers
  generalize storeAll tree (m :: (relinked tree.pageSize x.pageNumber B).take 1) = t at *
  rw [hB] at hstored hnumbers
  exact hq.kept_stored hstored hnumbers

end Leaves

/-! ## Deletions that change nothing when they are refused -/

section Deleting

variable {x : IndexBtreeCell} {free : UInt32}

/-- The rebuilt tree replaces the old one in the last step. -/
theorem compactWholeTree_unchanged : RefusesUnchanged (compactWholeTree leaf cell result) tree := by
  refine reads_stagePage.bind_unchanged fun _ _ => ?_
  refine reads_get.bind_unchanged fun _ _ => ?_
  refine reads_ofOutcome.bind_unchanged fun entries _ => ?_
  split
  · exact refusesUnchanged_throw
  · refine reads_ofOutcome.bind_unchanged fun rebuilt _ => ?_
    exact Succeeds.unchanged ((returns_set (u := ⟨⟩)).mpr rfl |>.bind succeeds_pure)

section

variable (h : Doomed tree leaves levels A c B us x vs path)
include h

/-- Live cells and what is left of them once the cell is gone. -/
theorem Doomed.mem_live {k : IndexBtreeCell} (hk : k ∈ A.flatMap liveCells ++
      (spared us vs ++ B.flatMap liveCells)) : k ∈ leaves.flatMap liveCells :=
  h.perm.mem_iff.mpr (mem_cons_of_mem _ hk)

theorem Doomed.mem_live_of_sharing
    (hs : Sharing tree leaves levels A B us vs path A₀ y z B₀ cy cz) {k : IndexBtreeCell}
    (hk : k ∈ cy ++ cz) : k ∈ leaves.flatMap liveCells := by
  refine h.mem_live ?_
  rw [← hs.all]
  exact mem_append_right _ (mem_append_left _ hk)

/-- A marked cell takes the room and the place of the unmarked one. -/
theorem Doomed.marked_buildable :
    Buildable (c.refilled free (us ++ { x with deleted := true } :: vs)) tree.pageSize := by
  obtain ⟨hindex, ⟨hnumber, hkind, hcells, hordered⟩, hheader, hroom⟩ :=
    (h.arranged.stored h.mem).built
  rw [h.cells] at hcells hordered hroom
  refine ⟨hindex, ⟨hnumber, hkind, ?_, ?_⟩, hheader, ?_⟩
  · simp only [IndexBtreePageBody.refilled, List.forall_mem_append, forall_mem_cons] at hcells ⊢
    obtain ⟨hus, ⟨hkey, hrow, hversion, hhigh, hchild⟩, hvs⟩ := hcells
    exact ⟨hus, ⟨hkey, hrow, hversion, hhigh, hchild⟩, hvs⟩
  · have hmap := pairwise_map.mpr hordered
    exact pairwise_map.mp
      (by simpa [IndexBtreePageBody.refilled, IndexBtreeCell.locator] using hmap)
  · simpa [bodyBytes, IndexBtreePageBody.refilled] using hroom

section

variable (hample : Ample tree leaves levels width)
include hample

/-- A leaf filled with live cells there is room for. -/
theorem Doomed.refilled_buildable (hy : y ∈ leaves)
    (hd : d = { y.refilled fy cy with rightSiblingPageNumber := n })
    (hcells : ∀ k ∈ cy, k ∈ leaves.flatMap liveCells) (hasc : Ascending cy)
    (hroom : cy.length * width ≤ cellCapacity tree.pageSize) : Buildable d tree.pageSize := by
  have hb := (h.arranged.stored hy).built
  subst hd
  refine Shaped.buildable ⟨hb.index, ⟨hb.fits.number, hb.fits.kind, fun k hk => ?_,
    hasc.imp fun hlt => le_of_lt hlt⟩, hb.header⟩ ?_
  · show CellFits (isInternalLike y) k
    rw [h.arranged.leaves.not_internal hy]
    exact h.arranged.live_fits (hcells k hk)
  · exact (cellsBytes_le fun k hk => hample.bytes k (hcells k hk)).trans hroom

omit h in
/-- There is room for as many cells as a leaf has. -/
theorem Ample.room_of_count (hy : y ∈ leaves) (hcount : cy.length ≤ (liveCells y).length) :
    cy.length * width ≤ cellCapacity tree.pageSize :=
  (Nat.mul_le_mul_right width hcount).trans (hample.room y (mem_append_left _ hy))

theorem Doomed.spared_buildable : Buildable (c.refilled free (spared us vs)) tree.pageSize := by
  have hasc := (pairwise_append.mp (pairwise_append.mp h.ascending).2.1).1
  refine h.refilled_buildable hample h.mem rfl (fun k hk => h.mem_live (by simp [hk])) hasc ?_
  exact hample.room_of_count h.mem (by rw [h.live_length]; exact Nat.le_succ _)

theorem Doomed.in_place_succeeds
    (hcells : cells = us ++ { x with deleted := true } :: vs ∨ cells = spared us vs)
    (hfilled : levels.isEmpty = false → spared us vs ≠ []) : Succeeds (do
      stagePageForDelete (c.refilled free cells)
      updateParentAfterLeafMutation path (c.refilled free cells) result) tree := by
  have hb : Buildable (c.refilled free cells) tree.pageSize := by
    rcases hcells with rfl | rfl
    · exact h.marked_buildable
    · exact h.spared_buildable hample
  have hlive := @live_of_kept c us vs cells x free hcells
  refine ((returns_stagePageForDelete (u := ())).mpr ⟨hb, rfl⟩).bind ?_
  refine (h.refilled rfl hlive hfilled hb).succeeds hb ?_ (h.arranged.ampleLevels hample)
  intro k hk
  rw [hlive] at hk
  exact hample.bytes k (h.mem_live (by simp [hk]))

theorem Doomed.exchange_succeeds (hl : Lending tree leaves levels A B us vs path A₀ y z B₀ cy cz) :
    Succeeds (exchange path (y.refilled fy (sortCells cy))
      (z.refilled fz (sortCells cz)) result) tree := by
  have hs := hl.sharing
  obtain ⟨hy, hz⟩ := hs.mem
  have hcells : ∀ k ∈ cy ++ cz, k ∈ leaves.flatMap liveCells :=
    fun k hk => h.mem_live_of_sharing hs hk
  obtain ⟨hascY, hascZ, -⟩ := pairwise_append.mp (hs.ascending h)
  rw [sortCells_of_ascending hascY, sortCells_of_ascending hascZ]
  have hby : Buildable (y.refilled fy cy) tree.pageSize :=
    h.refilled_buildable hample hy rfl (fun k hk => hcells k (mem_append_left _ hk)) hascY
      (hample.room_of_count hy hl.counts.1)
  have hbz : Buildable (z.refilled fz cz) tree.pageSize :=
    h.refilled_buildable hample hz rfl (fun k hk => hcells k (mem_append_right _ hk)) hascZ
      (hample.room_of_count hz hl.counts.2)
  obtain ⟨hliveY, hliveZ, he⟩ := hl.exchanged h
    (by rw [sortCells_of_ascending hascY]) (by rw [sortCells_of_ascending hascZ]) hby hbz
  refine he.succeeds hby hbz hs.top (h.arranged.leaves.filled hs.top z hz) ?_
    (h.arranged.ampleLevels hample)
  intro k hk
  refine hample.bytes k ?_
  have hmem := hcells k
  rw [hs.row] at hmem ⊢
  simp only [flatMap_append, flatMap_cons, hliveY, hliveZ, mem_append] at hk hmem ⊢
  tauto

theorem Doomed.storeMerged_succeeds (hs : Sharing tree leaves levels A B us vs path A₀ y z B₀ cy cz)
    (hkept : kept = y.refilled fy cy) (hremoved : removed = z.refilled fz cz) (hne : cy ++ cz ≠ [])
    (hb : Buildable (mergedLeaf kept removed) tree.pageSize) :
    Succeeds (storeMerged path kept removed
      ((mergedLeaf kept removed).laidOut tree.pageSize) result) tree := by
  subst hkept
  subst hremoved
  obtain ⟨hlink, hstored⟩ := hs.links h.arranged
  have hlink : (z.refilled fz cz).rightSiblingPageNumber = _ := hlink
  obtain ⟨hlive, hm⟩ := hs.merged h rfl rfl hne
    (forall_mem_cons.mpr ⟨hb, buildable_relinked hstored⟩)
  have hinternal : isInternalLike y = false := h.arranged.leaves.not_internal hs.mem.1
  have hwidth : ∀ k ∈ liveCells (mergedLeaf (y.refilled fy cy) (z.refilled fz cz)),
      k.bytes ≤ width := by
    intro k hk
    rw [hlive] at hk
    exact hample.bytes k (h.mem_live_of_sharing hs hk)
  obtain ⟨r, t, hr⟩ := hm.succeeds hb hinternal hs.top hwidth (h.arranged.ampleLevels hample)
  exact ⟨r, t, (returns_storeMerged hlink hstored).mpr hr⟩

/-- Three cells fit on one page: at most one is left in the leaf, and a neighbour
that lends none has two. -/
theorem Doomed.not_tooWide (hthird : 3 * width ≤ cellCapacity tree.pageSize) :
    ¬TooWide tree B (c.refilled free (spared us vs)) := by
  rintro ⟨hunder, n, hn, hsame, hlend, hwide⟩
  obtain ⟨B₀, rfl⟩ := List.head?_eq_some_iff.mp hn
  have hasc : Ascending (spared us vs ++ liveCells n) := by
    have hall := (pairwise_append.mp h.ascending).2.1
    rw [flatMap_cons, ← append_assoc] at hall
    exact (pairwise_append.mp hall).1
  have hleft : (spared us vs).length ≤ 1 := by
    rw [isUnderfilledNonRoot, Bool.and_eq_true, liveCellCount,
      List.countP_eq_length_filter] at hunder
    simpa [IndexBtreePageBody.refilled, spared_filter, Nat.lt_succ_iff] using hunder.2
  have hright : (neighbour tree.pageSize n).cells.length ≤ 2 := by
    simp only [sameParentAndLevel, Bool.and_eq_true, beq_iff_eq] at hsame
    simpa [canLend, sameParentAndLevel, hsame] using hlend
  have hmerged : mergedLeaf (c.refilled free (spared us vs)) (neighbour tree.pageSize n) =
      { c.refilled free (spared us vs ++ liveCells n) with
        rightSiblingPageNumber := n.rightSiblingPageNumber } := by
    rw [← sortCells_of_ascending hasc]
    rfl
  refine hwide (h.refilled_buildable hample h.mem hmerged (fun k hk => ?_) hasc ?_)
  · refine h.mem_live (mem_append_right _ ?_)
    rw [flatMap_cons, ← append_assoc]
    exact mem_append_left _ hk
  · rw [length_append]
    exact Nat.le_trans (Nat.mul_le_mul_right width (Nat.add_le_add hleft hright)) hthird

end

end

theorem compactWholeTree_succeeds (h : Arranged tree leaves levels)
    (hcell : cell ∈ leaves.flatMap liveCells) (hb : Buildable leaf tree.pageSize)
    (hrebuilt : rebuildIndexBtreePhysicalTreeFromLiveCells tree
      ((leaves.flatMap liveCells).eraseP (sameLiveEntry · cell)) = .ok t) :
    Succeeds (compactWholeTree leaf cell result) tree := by
  have hfound : (leaves.flatMap liveCells).any (sameLiveEntry · cell) = true :=
    any_eq_true.mpr ⟨cell, hcell, by simp [sameLiveEntry]⟩
  refine (returns_stagePage.mpr ⟨⟨hb, rfl⟩, rfl⟩).bind ?_
  refine (returns_ofOutcome.mpr ⟨atStage_ok_iff.mpr h.collectRepairLiveEntries_eq, rfl⟩).bind ?_
  rw [hfound]
  refine (returns_ofOutcome.mpr ⟨atStage_ok_iff.mpr hrebuilt, rfl⟩).bind ?_
  exact (returns_set (u := ⟨⟩)).mpr rfl |>.bind succeeds_pure

/-! ### The tree rebuilt -/

/-- What a tree has used up after `k` insertions. -/
structure Young (k : Nat) (tree : IndexBtreePhysicalTree) (levels : List Level) : Prop where
  levels : levels.length ≤ k
  counting : 0 < tree.nextPageNumber.toNat
  numbers : tree.nextPageNumber.toNat ≤ (k + 1) * 2 ^ 17

theorem Young.spare {k : Nat} (h : Young k tree levels) (hk : k + 1 < 2 ^ 16) :
    Spare tree levels := by
  obtain ⟨hlevels, hcounting, hnumbers⟩ := h
  refine ⟨fun hzero => ?_, by omega, by omega⟩
  rw [hzero] at hcounting
  exact absurd hcounting (by decide)

theorem Young.grown {k : Nat} {levels' : List Level} (h : Young k tree levels)
    (hk : k + 1 < 2 ^ 16) (hgrown : Grown tree levels 2 t levels') : Young (k + 1) t levels' := by
  obtain ⟨hlevels, hcounting, hnumbers⟩ := h
  obtain ⟨hheight, taken, hmany, hnext⟩ := hgrown
  have htotal : t.nextPageNumber.toNat = tree.nextPageNumber.toNat + taken := by
    rw [hnext, advance_toNat (by omega)]
  exact ⟨by omega, by omega, by omega⟩

/-- Short cells are inserted one by one into a new tree. The induction is on the
cells. -/
theorem insertAll_succeeds {k : Nat} (h : Arranged tree leaves levels)
    (hyoung : Young k tree levels) (hk : k + cells.length < 2 ^ 16)
    (hthird : 3 * width ≤ cellCapacity tree.pageSize)
    (hshort : ∀ m ∈ leaves.flatMap liveCells ++ cells, m.bytes ≤ width)
    (hcells : ∀ c ∈ cells, PlainEntry c ∧ CellFits false c) (hasc : Ascending cells)
    (hfresh : ∀ c ∈ cells, ∀ m ∈ leaves.flatMap liveCells, m.locator ≠ c.locator) :
    ∃ tree', insertAll cells tree = .ok tree' := by
  induction cells generalizing tree leaves levels k with
  | nil => exact ⟨tree, rfl⟩
  | cons c cells ih =>
    obtain ⟨⟨hplain, hfits⟩, hcells⟩ := forall_mem_cons.mp hcells
    obtain ⟨hlt, hasc⟩ := pairwise_cons.mp hasc
    obtain ⟨hnew, hfresh⟩ := forall_mem_cons.mp hfresh
    rw [length_cons] at hk
    have hlive : c.deleted = false := by rw [← hplain]
    have hprobe : validatePhysicalPageBody (requestProbe tree c) = .ok () :=
      validatePhysicalPageBody_ok_iff.mpr ⟨h.root_ne_zero, rfl,
        forall_mem_singleton.mpr hfits, List.pairwise_singleton _ _⟩
    obtain ⟨r, t, hr⟩ := h.insert_succeeds (hyoung.spare (by omega)) hthird
      (fun m hm => hshort m (mem_append_left _ hm)) hlive (hshort c (by simp)) hnew hprobe
    obtain ⟨leaves', levels', h', ⟨hsetup, hgrown⟩, hperm⟩ := h.insert (fun _ => hnew) hr
    have hmem : ∀ m ∈ leaves'.flatMap liveCells, m = c ∨ m ∈ leaves.flatMap liveCells := by
      intro m hm
      rcases mem_append.mp (hperm.subset hm) with hm | hm
      · exact .inl (mem_added hm).1
      · exact .inr hm
    have hshort' : ∀ m ∈ leaves'.flatMap liveCells ++ cells, m.bytes ≤ width := by
      intro m hm
      rcases mem_append.mp hm with hm | hm
      · rcases hmem m hm with rfl | hm
        · exact hshort m (mem_append_right _ mem_cons_self)
        · exact hshort m (mem_append_left _ hm)
      · exact hshort m (mem_append_right _ (mem_cons_of_mem _ hm))
    have hfresh' : ∀ d ∈ cells, ∀ m ∈ leaves'.flatMap liveCells, m.locator ≠ d.locator := by
      intro d hd m hm
      rcases hmem m hm with rfl | hm
      · exact ne_of_lt (hlt d hd)
      · exact hfresh d hd m hm
    rw [← hsetup.pageSize] at hthird
    obtain ⟨tree', hrest⟩ := ih h' (hyoung.grown (by omega) hgrown) (by omega) hthird hshort'
      hcells hasc hfresh'
    refine ⟨tree', ?_⟩
    rw [insertAll, hplain, hr]
    exact hrest

/-- A new tree for the pages of another. -/
theorem Arranged.initialize (h : Arranged tree leaves levels) : ∃ fresh,
    initializeIndexBtreePhysicalTree tree.indexUuid tree.pageSize = .ok fresh ∧
      fresh.pageSize = tree.pageSize ∧ Young 0 fresh [] := by
  obtain ⟨root, numbers, hunseen, -⟩ := h.unseen
  have hb := (pageAt_head hunseen.forest).stored.built
  have hone : (1 : UInt64) ≠ 0 := by decide
  have hbuilt : Buildable
      { indexUuid := tree.indexUuid, pageNumber := 1, pageKind := .root, treeLevel := 0 }
      tree.pageSize :=
    Shaped.buildable ⟨h.tower.sound.index, ⟨hone, rfl, forall_mem_nil _, List.Pairwise.nil⟩,
      hb.header⟩ (Nat.zero_le _)
  have hstaged := stagePhysicalPage_ok_iff.mpr ⟨hbuilt, rfl⟩
  have hnext : 0 < (2 : UInt64).toNat ∧ (2 : UInt64).toNat ≤ (0 + 1) * 2 ^ 17 := by decide
  rw [initializeIndexBtreePhysicalTree, h.tower.sound.index, hstaged]
  exact ⟨_, rfl, rfl, ⟨le_refl 0, hnext.1, hnext.2⟩⟩

/-- A tree is rebuilt from fewer than `2 ^ 16` of its cells, where three fit on a
page. -/
theorem Arranged.rebuild_succeeds (h : Arranged tree leaves levels)
    (hthird : 3 * width ≤ cellCapacity tree.pageSize)
    (hshort : ∀ m ∈ leaves.flatMap liveCells, m.bytes ≤ width)
    (hcells : cells.Sublist (leaves.flatMap liveCells)) (hfew : cells.length < 2 ^ 16) :
    ∃ rebuilt, rebuildIndexBtreePhysicalTreeFromLiveCells tree cells = .ok rebuilt := by
  have hasc : Ascending cells := h.leaves.ascending.sublist hcells
  obtain ⟨fresh, hfresh, hsize, hyoung⟩ := h.initialize
  obtain ⟨root, hroot, hlive⟩ := initialize_arranged hfresh
  have hnone : [root].flatMap liveCells = [] := by rw [flatMap_singleton, hlive]
  have hplain : ∀ c ∈ cells, PlainEntry c ∧ CellFits false c := fun c hc =>
    ⟨h.plain c (hcells.subset hc), h.live_fits (hcells.subset hc)⟩
  have hnew : ∀ c ∈ cells, ∀ m ∈ [root].flatMap liveCells, m.locator ≠ c.locator := by
    rw [hnone]
    exact fun _ _ => nofun
  obtain ⟨rebuilt, hinsert⟩ := insertAll_succeeds hroot hyoung (by omega) (hsize ▸ hthird) (by
    rw [hnone]
    exact fun m hm => hshort m (hcells.subset hm)) hplain hasc hnew
  obtain ⟨leaves', levels', h', -⟩ :=
    insertAll_ok hroot (fun c hc => (hplain c hc).1) hasc hnew hinsert
  obtain ⟨result, hvalid⟩ := h'.validate
  have hdistinct : checkRebuildDuplicates cells = .ok () := by
    refine checkNeighbours_ok (hasc.imp fun hab => ?_)
    rw [← Bool.not_eq_true]
    exact fun hsame => ne_of_lt hab (locator_eq_of_sameLiveEntry hsame)
  refine ⟨rebuilt, ?_⟩
  rw [rebuildIndexBtreePhysicalTreeFromLiveCells, sortCells_of_ascending hasc,
    atStage_ok_iff.mpr hfresh, ok_bind, hdistinct, ok_bind, atStage_ok_iff.mpr hinsert, ok_bind,
    atStage_ok_iff.mpr hvalid, ok_bind, exportIndexBtreePhysicalTreeImage,
    atStage_ok_iff.mpr hvalid]
  rfl

section

variable (h : Arranged tree leaves levels) (hample : Ample tree leaves levels width)
include hample

/-- Nothing refuses but a rebuild. -/
theorem Course.succeeds_or_rebuilds {run : TreeM IndexBtreePhysicalDeleteResult}
    (hcourse : Course tree leaves levels cell run) : Succeeds run tree ∨ ∃ leaf result,
      run = compactWholeTree leaf cell result ∧ Buildable leaf tree.pageSize := by
  cases hcourse with
  | inPlace hdoomed hx hcells hfilled =>
    exact .inl (hdoomed.in_place_succeeds hample hcells hfilled)
  | exchange hdoomed hx hl => exact .inl (hdoomed.exchange_succeeds hample hl)
  | merge hdoomed hx hs hkept hremoved hne hb =>
    exact .inl (hdoomed.storeMerged_succeeds hample hs hkept hremoved hne hb)
  | compact hdoomed hx hleaf => exact .inr ⟨_, _, rfl, hleaf ▸ hdoomed.spared_buildable hample⟩

include h

omit hample in
/-- A deletion that is refused has changed nothing where the pages have room, and
where it has nothing to delete. -/
theorem Arranged.delete_unchanged (hample : cell.entry ∈ (leaves.flatMap liveCells).map (·.entry) →
      Ample tree leaves levels width) : RefusesUnchanged (deleteIndexBtreeCell cell) tree := by
  refine h.delete_course.unchanged fun m ⟨hfits, hcourse⟩ => ?_
  have hfound := (h.mem_entries hfits.key).mpr hcourse.found
  obtain hm | ⟨leaf, result, rfl, -⟩ := hcourse.succeeds_or_rebuilds (hample hfound)
  · exact hm.unchanged
  · exact compactWholeTree_unchanged

/-- And where three cells fit on a page, nothing is refused. -/
theorem Arranged.delete_succeeds
    (hthird : 3 * width ≤ cellCapacity tree.pageSize) (hcell : cell ∈ leaves.flatMap liveCells)
    (hfew : (leaves.flatMap liveCells).length ≤ 2 ^ 16) :
    Succeeds (deleteIndexBtreeCell cell) tree := by
  obtain ⟨A, c, B, path, hrow, hsought, hpath, hdescent, hvalid⟩ := h.descendFromRoot_eq cell
  obtain ⟨hA, hB⟩ := h.around hrow hsought
  have hmem : cell ∈ liveCells c := by
    rw [hrow, flatMap_append, flatMap_cons, mem_append, mem_append] at hcell
    rcases hcell with hcell | hcell | hcell
    · exact absurd (hA cell hcell) (lt_irrefl _)
    · exact hcell
    · exact absurd (hB cell hcell) (lt_irrefl _)
  have hprobe : validatePhysicalPageBody (requestProbe tree cell) = .ok () :=
    validatePhysicalPageBody_ok_iff.mpr ⟨h.root_ne_zero, rfl,
      forall_mem_singleton.mpr (h.live_fits hcell), List.pairwise_singleton _ _⟩
  refine (returns_get.mpr ⟨rfl, rfl⟩).bind ?_
  rw [if_neg h.root_ne_zero]
  refine (returns_ofOutcome.mpr ⟨hprobe, rfl⟩).bind ?_
  refine (returns_ofOutcome.mpr ⟨hdescent, rfl⟩).bind ?_
  refine (returns_ofOutcome.mpr ⟨hvalid, rfl⟩).bind ?_
  split
  · next hnone =>
    have hno := List.findIdx?_eq_none_iff.mp hnone cell (mem_filter.mp hmem).1
    exact absurd hno
      (by simpa [isExactLocatorCell, compareIndexBtreeCells_eq] using (mem_filter.mp hmem).2)
  · next i hfound =>
    obtain ⟨us, x, vs, hcells, hlive, hx, hmarked⟩ := markDeleted_ok hfound
    have hdoomed : Doomed tree leaves levels A c B us x vs path := ⟨h, hrow, hcells, hlive, hpath⟩
    refine (hdoomed.deleteFromLeaf hx (markDeleted_refilled hmarked)).succeeds
      (hdoomed.not_tooWide hample hthird) fun m hcourse => ?_
    obtain hm | ⟨leaf, result, rfl, hb⟩ := hcourse.succeeds_or_rebuilds hample
    · exact hm
    · have hsame : sameLiveEntry cell cell = true := by simp [sameLiveEntry]
      have hlength := List.length_eraseP_of_mem (p := (sameLiveEntry · cell)) hcell hsame
      have hpos := List.length_pos_of_mem hcell
      obtain ⟨rebuilt, hrebuilt⟩ := h.rebuild_succeeds hthird hample.bytes
        (List.eraseP_sublist (p := (sameLiveEntry · cell))) (by omega)
      exact compactWholeTree_succeeds h hcell hb hrebuilt

end

end Deleting

/-- Every page has room for cells of `width` bytes as often as it has live cells. -/
def RoomOnPages (tree : IndexBtreePhysicalTree) (width : Nat) : Prop :=
  ∀ image ∈ tree.pages, ∀ page, fetchIndexBtreePhysicalPage tree image.pageNumber = .ok page →
    (liveCells page).length * width ≤ cellCapacity tree.pageSize

instance : Decidable (RoomOnPages tree width) := inferInstanceAs (Decidable (∀ _ ∈ _, _))

theorem Arranged.ample (h : Arranged tree leaves levels) (hroom : RoomOnPages tree width)
    (hwidth : ∀ k ∈ leaves.flatMap liveCells, k.bytes ≤ width) :
    Ample tree leaves levels width := by
  refine ⟨hwidth, fun p hp => ?_⟩
  have hfetched := (h.tower.stored p hp).fetched
  obtain ⟨image, hmem, hnumber⟩ := exists_image_of_fetch hfetched
  rw [← hnumber] at hfetched
  exact hroom image hmem (p.settled tree.pageSize) hfetched

/-- Where three of the longest live cells fit on a page, and on every page as many
of them as it has live cells, every live cell can be deleted. The bound on their
number is for the rebuilt tree, whose levels are counted in 16 bits. -/
theorem live_cell_deleted {width : Nat} {entries : List IndexBtreeCell}
    (h : Reached insertsNewEntries tree) (hentries : collectRepairLiveEntries tree = .ok entries)
    (hcell : cell ∈ entries) (hwidth : ∀ k ∈ entries, k.bytes ≤ width)
    (hthird : 3 * width ≤ cellCapacity tree.pageSize) (hroom : RoomOnPages tree width)
    (hfew : entries.length ≤ 2 ^ 16) : Succeeds (deleteIndexBtreeCell cell) tree := by
  obtain ⟨leaves, levels, harranged⟩ := h.arranged
  rw [harranged.collectRepairLiveEntries_eq] at hentries
  cases hentries
  exact harranged.delete_succeeds (harranged.ample hroom hwidth) hthird hcell hfew

theorem sampleRun_deletes : ∃ tree, runFrom sampleIndex 512 sampleRun = .ok tree ∧
    ∀ cell ∈ sampleCells, Succeeds (deleteIndexBtreeCell cell) tree := by
  obtain ⟨tree, hrun, hroom⟩ : ∃ tree, runFrom sampleIndex 512 sampleRun = .ok tree ∧
      RoomOnPages tree 71 := by
    decide +kernel
  obtain ⟨tree', hrun', hsize, hcells, -⟩ := sampleRun_tree
  cases hrun.symm.trans hrun'
  exact ⟨tree, hrun, fun cell hcell => live_cell_deleted
    (reached_of_admitted sampleRun_admitted hrun) hcells hcell (by decide)
    (by rw [hsize]; decide) hroom (by decide)⟩

/-- They make two leaves with two cells each. -/
def crowdedRun : List BtreeOperation :=
  [.insert (sampleCell [2] 2), .insert (sampleCell [3, 0] 3), .insert (sampleCell [4] 4),
   .insert (sampleCell [1] 1)]

/-- One of the leaves loses a cell. The neighbour has none to lend, and three cells
do not fit on a page. -/
theorem crowded_leaf_keeps_cell : ∃ tree, runFrom sampleIndex 384 crowdedRun = .ok tree ∧
    (∃ entries, collectRepairLiveEntries tree = .ok entries ∧ sampleCell [1] 1 ∈ entries) ∧
    ((deleteIndexBtreeCell (sampleCell [1] 1)).run.run tree).1.isOk = false := by
  decide +kernel

/-!
## What a refused call leaves behind

An insertion publishes the leaf, and a deletion the leaves it touches, before the
pages above are brought up to date. A page above that has no room for a longer
fence refuses, and the leaves stay as they were published: the call failed and
the index holds other entries. Insertions are safe when no cell takes more than a
third of a page, and when they are refused before the leaf is published: the
deleted cells of a leaf may be gone then and page numbers taken, but not an entry.
Deletions are safe when the pages have room for the longest live key as often as
they have live cells, and when there is nothing to delete.
-/

/-! ### Insertion -/

/-- A key whose cell fits three times on a page. -/
def IsShortKey (pageSize : UInt32) (key : Bytes) : Prop :=
  3 * (kCellHeaderBytes + key.length) ≤ cellCapacity pageSize

/-- Wherever the cells are cut, one of the parts does not fit on a page. -/
def Crowded (pageSize : UInt32) (cells : List IndexBtreeCell) : Prop :=
  ∀ front back, cells = front ++ back →
    cellCapacity pageSize < cellsBytes front ∨ cellCapacity pageSize < cellsBytes back

/-- The cell is not well formed, the leaf for it is the root, or its live cells and the
cell fit neither on one page nor on two. -/
def NothingAbove (tree : IndexBtreePhysicalTree) (cell : IndexBtreeCell) : Prop :=
  validatePhysicalPageBody (requestProbe tree cell) = .ok () →
    ∀ leaf path, descendFromRoot tree cell = .ok (leaf, path) →
      path = [] ∨ Crowded tree.pageSize (insertCellSorted (liveCells leaf) cell)

section Refused

variable {tree' : IndexBtreePhysicalTree} {entry : IndexBtreePhysicalInsertResult}

theorem Arranged.bumped (h : Arranged tree leaves levels) (hnext : tree.nextPageNumber ≠ 0) :
    Arranged (bump tree) leaves levels :=
  ⟨⟨h.tower.sound.bump hnext, h.tower.above, fun p hp => stored_bump (h.tower.stored p hp),
    h.tower.numbers⟩, h.leaves⟩

theorem Crowded.not_buildable (h : Crowded tree.pageSize (insertCellSorted (liveCells p) cell)) :
    ¬Buildable (withCell p cell) tree.pageSize := by
  intro hb
  have hle : cellsBytes (insertCellSorted p.cells cell) ≤ cellCapacity tree.pageSize := hb.cells_le
  rcases h [] (insertCellSorted (liveCells p) cell) rfl with hover | hover
  · exact absurd hover (Nat.not_lt_zero _)
  · rw [cellsBytes_of_perm insertCellSorted_perm] at hle hover
    have hfewer := cellsBytes_sublist (List.Sublist.cons_cons cell
      (List.filter_sublist (p := (!·.deleted)) (l := p.cells)))
    exact absurd (hfewer.trans hle) (not_le.mpr hover)

/-- A leaf with the cell on it is published only as the root, and nothing is above
the root. -/
theorem publish_not_refused (hb : Buildable (withCell p cell) tree.pageSize)
    (hplace : path = [] ∨ Crowded tree.pageSize (insertCellSorted (liveCells p) cell)) :
    ¬Refuses (do publishPage ((withCell p cell).laidOut tree.pageSize)
                 updateParentFence path (withCell p cell) entry) tree tree' := by
  obtain rfl := hplace.resolve_right fun hcrowded => hcrowded.not_buildable hb
  refine Succeeds.not_refuses (returns_publish.bind ?_)
  rw [updateParentFence]
  exact succeeds_pure

theorem refuses_takePageNumber_bind {α : Type} {f : UInt64 → TreeM α} :
    Refuses (takePageNumber >>= f) tree tree' ↔
      Refuses (f tree.nextPageNumber) (bump tree) tree' := Iff.rfl

theorem splitOrRefuse_reads {left right : IndexBtreePageBody} {code key detail : String} :
    Reads (splitOrRefuse left right cells code key detail) := by
  refine reads_get.bind fun tree => ?_
  cases findSerializableSplitPoint left right cells tree.pageSize with
  | none => exact fun _ => rfl
  | some split => exact reads_pure

theorem stagePages_reads : ∀ pages, Reads (stagePages pages)
  | [] => reads_pure
  | _ :: pages =>
    reads_stagePage.bind fun _ => (stagePages_reads pages).bind fun _ => reads_pure

section

variable (h : Arranged tree leaves levels) (hspare : Spare tree levels)
include h hspare

theorem Arranged.splitLeaf_refused (hroot : path = [] → d.pageKind = .root ∧ d.treeLevel = 0)
    (hplace : path = [] ∨ Crowded tree.pageSize d.cells)
    (hr : Refuses (splitLeaf path d) tree tree') : Arranged tree' leaves levels := by
  have hbump := h.bumped hspare.counting
  have hnext : (bump tree).nextPageNumber ≠ 0 := by
    have hnumbers := hspare.numbers
    have hone : (1 : UInt64).toNat = 1 := rfl
    have hzero : (0 : UInt64).toNat = 0 := rfl
    show tree.nextPageNumber + 1 ≠ 0
    rw [ne_eq, ← UInt64.toNat_inj, UInt64.toNat_add]
    omega
  rw [splitLeaf] at hr
  split at hr
  · exact refuses_throw.mp hr ▸ h
  · split at hr
    · -- Both halves and the new root are staged before the first is published.
      rw [splitRootLeaf, refuses_takePageNumber_bind, refuses_takePageNumber_bind,
        refuses_get_bind] at hr
      rcases refuses_bind.mp hr with hr | ⟨⟨left, right⟩, t, hcut, hr⟩
      · exact splitOrRefuse_reads.unchanged _ hr ▸ hbump.bumped hnext
      · obtain rfl := splitOrRefuse_reads.returns hcut
        rcases refuses_bind.mp hr with hr | ⟨staged, t, hstaged, hr⟩
        · exact (stagePages_reads _).unchanged _ hr ▸ hbump.bumped hnext
        · obtain ⟨⟨-, rfl⟩, rfl⟩ := returns_stagePages.mp hstaged
          exact absurd hr (Succeeds.not_refuses
            (((returns_publishPages_laidOut (u := ()) rfl).mpr rfl).bind succeeds_pure))
    · next hnot =>
      have hcrowded := hplace.resolve_left fun hnil => hnot (hroot hnil)
      rw [splitNonRootLeaf, refuses_takePageNumber_bind, refuses_get_bind] at hr
      rcases refuses_bind.mp hr with hr | ⟨⟨left, right⟩, t, hcut, hr⟩
      · exact splitOrRefuse_reads.unchanged _ hr ▸ hbump
      · obtain ⟨front, back, hcut⟩ := exists_cut_of_returns (returns_bind.mpr ⟨_, t, hcut,
          returns_pure.mpr ⟨rfl, rfl⟩⟩)
        obtain ⟨-, -, hleft, hright⟩ := hcut.sound
        rcases hcrowded front back hcut.parts with hover | hover
        · exact absurd hleft.cells_le (not_le.mpr hover)
        · exact absurd hright.cells_le (not_le.mpr hover)

/-- A refused insertion into a leaf that is the root, or has no place for the cell,
leaves the live cells of all leaves as they were. -/
theorem Arranged.insertIntoLeaf_refused (hrow : leaves = A ++ c :: B)
    (hpath : PathUp levels c.parentPageNumber path)
    (hplace : path = [] ∨ Crowded tree.pageSize (insertCellSorted (liveCells c) cell))
    (hr : Refuses (insertIntoLeaf path (c.settled tree.pageSize) cell) tree tree') :
    ∃ leaves', Arranged tree' leaves' levels ∧
      leaves'.flatMap liveCells = leaves.flatMap liveCells := by
  have hc : c ∈ leaves := by
    rw [hrow]
    simp
  have hroot : path = [] → c.pageKind = .root ∧ c.treeLevel = 0 := by
    rintro rfl
    have hempty : levels = [] := by
      cases levels with
      | nil => rfl
      | cons row levels =>
        obtain ⟨p, -, -, above, hnil, -⟩ := hpath
        cases hnil
    have hkind := h.leaves.kind c hc
    rw [hempty] at hkind
    exact ⟨hkind, h.leaves.level c hc⟩
  rw [insertIntoLeaf, refuses_get_bind] at hr
  split at hr
  · next staged hstaged =>
    obtain ⟨hb, rfl⟩ := stagePhysicalPage_ok_iff.mp hstaged
    exact absurd hr (publish_not_refused hb hplace)
  · split at hr
    · exact ⟨leaves, refuses_throw.mp hr ▸ h, rfl⟩
    · split at hr
      · -- The leaf is published without its deleted cells first.
        generalize hq : removeDeletedCells (c.settled tree.pageSize) = q at hr
        have hb : Buildable q tree.pageSize := hq ▸ (h.stored hc).built.compacted
        have hlive : liveCells q = liveCells c := by
          rw [← hq]
          exact liveCells_refilled_live
        have hundeleted : q.cells = liveCells c := by
          rw [← hq]
          rfl
        obtain ⟨h', hall⟩ := h.compacted hrow hq.symm hlive hb
        rw [insertCompacted, hq] at hr
        rcases refuses_bind.mp hr with hr | ⟨staged, t, hstaged, hr⟩
        · exact ⟨leaves, reads_stagePage.unchanged _ hr ▸ h, rfl⟩
        · obtain ⟨⟨-, rfl⟩, rfl⟩ := returns_stagePage.mp hstaged
          rcases refuses_bind.mp hr with hr | ⟨u, t, hpublish, hr⟩
          · exact absurd hr (Succeeds.not_refuses ⟨_, _, returns_publish⟩)
          · obtain rfl := returns_publishPage.mp hpublish
            refine ⟨A ++ q :: B, ?_, hall⟩
            rw [refuses_get_bind] at hr
            split at hr
            · next staged hstaged =>
              obtain ⟨hb, rfl⟩ := stagePhysicalPage_ok_iff.mp hstaged
              exact absurd hr (publish_not_refused hb (hlive ▸ hplace))
            · split at hr
              · exact refuses_throw.mp hr ▸ h'
              · refine h'.splitLeaf_refused ⟨hspare.counting, hspare.numbers, hspare.levels⟩
                  (hq ▸ hroot) ?_ hr
                show path = [] ∨ Crowded _ (insertCellSorted q.cells cell)
                rw [hundeleted]
                exact hplace
      · next hdeleted =>
        have hundeleted : liveCells c = c.cells := liveCells_of_undeleted
          (hasDeletedCells_eq_false_iff.mp (Bool.eq_false_iff.mpr hdeleted))
        rw [hundeleted] at hplace
        exact ⟨leaves, h.splitLeaf_refused (d := withCell (c.settled tree.pageSize) cell) hspare
          hroot hplace hr, rfl⟩

end

end Refused

/-- An insertion that is refused has changed neither the entries nor the answer to
any request, while numbers and levels last: when it brings a new live cell and all
keys are short, or when it is refused before a leaf is published. -/
theorem refused_insert_changes_nothing {tree tree' : IndexBtreePhysicalTree}
    {entries : Multiset BtreeEntry} {cell : IndexBtreeCell} (h : Reached insertsNewEntries tree)
    (hentries : reachableEntries tree = .ok entries) (hroom : Headroom tree)
    (hsafe : cell.deleted = false ∧ cell.entry ∉ entries ∧
        IsShortKey tree.pageSize cell.encodedKey ∧
        (∀ e ∈ entries, IsShortKey tree.pageSize e.encodedKey) ∨ NothingAbove tree cell)
    (hrefused : Refuses (insertIndexBtreeCell cell) tree tree') :
    reachableEntries tree' = .ok entries ∧ ∀ request,
      (scanIndexBtreePhysicalTree tree' request).map (·.locators.map (·.entry)) =
        (scanIndexBtreePhysicalTree tree request).map (·.locators.map (·.entry)) := by
  obtain ⟨leaves, levels, harranged⟩ := h.arranged
  have hspare := harranged.spare hroom
  have hall := harranged.reachableEntries_eq
  rw [hentries] at hall
  cases hall
  suffices hkept : ∃ leaves', Arranged tree' leaves' levels ∧
      leaves'.flatMap liveCells = leaves.flatMap liveCells by
    obtain ⟨leaves', h', hcells⟩ := hkept
    have hsame : reachableEntries tree' = reachableEntries tree := by
      rw [h'.reachableEntries_eq, harranged.reachableEntries_eq, hcells]
    exact ⟨hsame.trans hentries, fun _ => h'.scans_alike harranged hsame⟩
  by_cases hprobe : validatePhysicalPageBody (requestProbe tree cell) = .ok ()
  · rcases hsafe with ⟨hlive, hnew, hcell, hshort⟩ | hplace
    · rw [IsShortKey] at hcell
      have hthird : 3 * (cellCapacity tree.pageSize / 3) ≤ cellCapacity tree.pageSize := by omega
      have hsucceeds : Succeeds (insertIndexBtreeCell cell) tree := by
        refine harranged.insert_succeeds hspare hthird ?_ hlive ?_ ?_ hprobe
        · intro m hm
          have hm : IsShortKey tree.pageSize m.entry.encodedKey :=
            hshort m.entry (mem_map_of_mem hm)
          rw [IsShortKey] at hm
          show kCellHeaderBytes + m.entry.encodedKey.length ≤ _
          omega
        · show kCellHeaderBytes + cell.encodedKey.length ≤ _
          omega
        · intro m hm hlocator
          exact hnew ((harranged.mem_entries (requestProbe_fits hprobe).key).mpr
            ⟨m, hm, hlocator⟩)
      exact absurd hrefused hsucceeds.not_refuses
    · obtain ⟨A, c, B, path, hrow, -, hpath, hdescent, hvalid⟩ := harranged.descendFromRoot_eq cell
      rw [insertIndexBtreeCell, refuses_get_bind, if_neg harranged.root_ne_zero, hprobe,
        hdescent] at hrefused
      have hrun : Refuses (ofOutcome (validateDescentPath tree path (c.settled tree.pageSize) cell)
        >>= fun _ => insertIntoLeaf path (c.settled tree.pageSize) cell) tree tree' := hrefused
      rw [hvalid] at hrun
      exact harranged.insertIntoLeaf_refused hspare hrow hpath
        (hplace hprobe (c.settled tree.pageSize) path hdescent) hrun
  · obtain rfl := insert_refused_by_check hprobe hrefused
    exact ⟨leaves, harranged, rfl⟩

/-- A cell that no page can hold has no place. -/
theorem nothingAbove_of_large (h : cellCapacity tree.pageSize < cell.bytes) :
    NothingAbove tree cell := by
  intro _ leaf path _
  refine .inr fun front back hparts => ?_
  have hmem : cell ∈ front ++ back := hparts ▸ insertCellSorted_perm.mem_iff.mpr mem_cons_self
  refine (mem_append.mp hmem).imp (fun hcell => ?_) fun hcell => ?_
  all_goals exact h.trans_le (cellsBytes_sublist (List.singleton_sublist.mpr hcell))

theorem sampleRun_refuses_large : ∃ tree tree', runFrom sampleIndex 512 sampleRun = .ok tree ∧
    Refuses (insertIndexBtreeCell (sampleCell (List.replicate 230 6) 6)) tree tree' ∧
    reachableEntries tree' = .ok (sampleCells.map (·.entry) : List BtreeEntry) := by
  obtain ⟨tree, hrun, hsize, hcells, -, -, -, hlarge, -⟩ := sampleRun_tree
  obtain ⟨tree', hrun', hnext, hlevel⟩ : ∃ tree, runFrom sampleIndex 512 sampleRun = .ok tree ∧
      tree.nextPageNumber = 4 ∧
      ∀ root, fetchIndexBtreePhysicalPage tree tree.rootPageNumber = .ok root →
        root.treeLevel.toNat + 1 < 2 ^ 16 := by
    decide +kernel
  cases hrun.symm.trans hrun'
  have hroom : Headroom tree := ⟨by rw [hnext]; decide, by rw [hnext]; decide, hlevel⟩
  have hplace : NothingAbove tree (sampleCell (List.replicate 230 6) 6) :=
    nothingAbove_of_large (by rw [hsize]; decide +kernel)
  have hrefused := refuses_of_isOk hlarge
  exact ⟨tree, _, hrun, hrefused, (refused_insert_changes_nothing
    (reached_of_admitted sampleRun_admitted hrun) (reachableEntries_of_collect hcells) hroom
    (.inr hplace) hrefused).1⟩

/-- A key that takes more than half of a page of 504 bytes. -/
def longKey (n : UInt8) : Bytes := n :: List.replicate 73 0

/-- The root has a long fence and a short one. A long cell behind all others fits
its leaf, but its fence does not fit beside the other, neither in the root nor in
a root above its halves. -/
theorem refused_insert_leaves_cell : ∃ tree tree' cell before after,
    Reached anyCall tree ∧ Refuses (insertIndexBtreeCell cell) tree tree' ∧
      scanIndexBtreePhysicalTree tree {} = .ok before ∧
      scanIndexBtreePhysicalTree tree' {} = .ok after ∧ cell.entry ∉ before.locators.map (·.entry) ∧
      cell.entry ∈ after.locators.map (·.entry) := by
  obtain ⟨tree, hrun, hrefused, ⟨before, hscan, hnot⟩, after, hscan', hmem⟩ :
      ∃ tree, runFrom sampleIndex 504 [.insert (sampleCell [1] 1),
          .insert (sampleCell (longKey 2) 2), .insert (sampleCell [3] 3),
          .insert (sampleCell [5] 5)] = .ok tree ∧
        ((insertIndexBtreeCell (sampleCell (longKey 6) 6)).run.run tree).1.isOk = false ∧
        (∃ before, scanIndexBtreePhysicalTree tree {} = .ok before ∧
          (sampleCell (longKey 6) 6).entry ∉ before.locators.map (·.entry)) ∧
        ∃ after, scanIndexBtreePhysicalTree
            ((insertIndexBtreeCell (sampleCell (longKey 6) 6)).run.run tree).2 {} = .ok after ∧
          (sampleCell (longKey 6) 6).entry ∈ after.locators.map (·.entry) := by
    decide +kernel
  exact ⟨tree, _, _, before, after, reached_of_runFrom hrun, refuses_of_isOk hrefused, hscan,
    hscan', hnot, hmem⟩

/-! ### Deletion -/

/-- A deletion that is refused has changed nothing when there is nothing to delete,
and when the pages have room for the longest live key in the place of each of
their live cells. -/
theorem refused_delete_changes_nothing {tree tree' : IndexBtreePhysicalTree}
    {entries : Multiset BtreeEntry} {cell : IndexBtreeCell} {width : Nat}
    (h : Reached insertsNewEntries tree) (hentries : reachableEntries tree = .ok entries)
    (hwidth : ∀ e ∈ entries, kCellHeaderBytes + e.encodedKey.length ≤ width)
    (hroom : cell.entry ∈ entries → RoomOnPages tree width)
    (hrefused : Refuses (deleteIndexBtreeCell cell) tree tree') :
    tree' = tree ∧ reachableEntries tree' = .ok entries := by
  obtain ⟨leaves, levels, harranged⟩ := h.arranged
  have hall := harranged.reachableEntries_eq
  rw [hentries] at hall
  cases hall
  obtain rfl := harranged.delete_unchanged (fun hmem => harranged.ample (hroom hmem)
    fun k hk => hwidth k.entry (mem_map_of_mem hk)) tree' hrefused
  exact ⟨rfl, hentries⟩

theorem crowdedRun_refuses_delete : ∃ tree tree', runFrom sampleIndex 384 crowdedRun = .ok tree ∧
    Refuses (deleteIndexBtreeCell (sampleCell [1] 1)) tree tree' ∧ tree' = tree := by
  obtain ⟨tree, hrun, hroom, ⟨entries, hentries, hwidth⟩, hrefused⟩ :
      ∃ tree, runFrom sampleIndex 384 crowdedRun = .ok tree ∧ RoomOnPages tree 70 ∧
        (∃ entries, reachableEntries tree = .ok entries ∧
          ∀ e ∈ entries, kCellHeaderBytes + e.encodedKey.length ≤ 70) ∧
        ((deleteIndexBtreeCell (sampleCell [1] 1)).run.run tree).1.isOk = false := by
    decide +kernel
  have hnew : ∀ fresh, initializeIndexBtreePhysicalTree sampleIndex 384 = .ok fresh →
      Admitted insertsNewEntries BtreeOperation.after crowdedRun fresh := by
    decide +kernel
  have hrefused := refuses_of_isOk hrefused
  exact ⟨tree, _, hrun, hrefused, (refused_delete_changes_nothing (reached_of_admitted hnew hrun)
    hentries hwidth (fun _ => hroom) hrefused).1⟩

/-- The deleted cell was the last of its leaf, short and behind a long one. The
long one becomes the fence, and the root has no room for two long fences. -/
theorem refused_delete_loses_cell : ∃ tree tree' cell before after,
    Reached anyCall tree ∧ Refuses (deleteIndexBtreeCell cell) tree tree' ∧
      reachableEntries tree = .ok before ∧ reachableEntries tree' = .ok after ∧
      cell.entry ∈ before ∧ cell.entry ∉ after := by
  obtain ⟨tree, hrun, hrefused, ⟨before, hread, hmem⟩, after, hread', hnot⟩ :
      ∃ tree, runFrom sampleIndex 504 [.insert (sampleCell [1] 1),
          .insert (sampleCell (longKey 2) 2), .insert (sampleCell [3] 3),
          .insert (sampleCell [5] 5), .insert (sampleCell (longKey 4) 4)] = .ok tree ∧
        ((deleteIndexBtreeCell (sampleCell [5] 5)).run.run tree).1.isOk = false ∧
        (∃ before, reachableEntries tree = .ok before ∧ (sampleCell [5] 5).entry ∈ before) ∧
        ∃ after, reachableEntries ((deleteIndexBtreeCell (sampleCell [5] 5)).run.run tree).2 =
          .ok after ∧ (sampleCell [5] 5).entry ∉ after := by
    decide +kernel
  exact ⟨tree, _, _, before, after, reached_of_runFrom hrun, refuses_of_isOk hrefused, hread,
    hread', hmem, hnot⟩

end ScratchBird.Btree
