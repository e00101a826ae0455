import ScratchBird.Proofs.BtreeLeaves

/-!
# Inserting keeps the index in order

A successful insertion of a cell whose locator is not live in the index puts the
cell into the leaf it belongs to, or into one of the two leaves that leaf is
split into, and the change is carried to the root. A deleted cell may be inserted
as well and adds nothing to the live cells. A split could leave such a cell alone
on a leaf, but then the fence of that leaf has no key and is refused.
-/

namespace ScratchBird.Btree

open Lib List

variable {tree tree' : IndexBtreePhysicalTree} {page left right c d leaf : IndexBtreePageBody}
  {cells front back U V : List IndexBtreeCell} {result r : IndexBtreePhysicalInsertResult}
  {path : List UInt64}
  {climb : IndexBtreePageBody → IndexBtreePhysicalInsertResult →
    TreeM IndexBtreePhysicalInsertResult}
  {propagate : IndexBtreePageBody → IndexBtreePageBody → IndexBtreePhysicalInsertResult →
    TreeM IndexBtreePhysicalInsertResult}
  {pageSize : UInt32} {cell a b x : IndexBtreeCell} {leaves A B Y : Level} {levels : List Level}
  {key : Locator} {index : TypedUuid} {n : UInt64}

/-! ## A fence that was stored has a key -/

theorem Cut.keys (h : Cut left right cells pageSize front back) :
    ∀ c ∈ cells, isOrderPreservingEncodedKey c.encodedKey = true := by
  obtain ⟨-, -, hl, hr⟩ := h.sound
  rw [h.parts]
  exact forall_mem_append.mpr ⟨fun c hc => (hl.fits.cells c hc).key,
    fun c hc => (hr.fits.cells c hc).key⟩

theorem splitInternalPage_keys
    (h : Returns (splitInternalPage path page cells result propagate) tree r tree') :
    ∀ c ∈ cells, isOrderPreservingEncodedKey c.encodedKey = true := by
  intro c hc
  have hsorted : c ∈ sortCells cells := sortCells_perm.mem_iff.mpr hc
  obtain ⟨-, h⟩ := returns_guard.mp h
  split at h
  · obtain ⟨front, back, hcut⟩ := exists_cut_splitInternalRoot h
    exact hcut.keys c hsorted
  · obtain ⟨-, h⟩ := returns_guard.mp h
    obtain ⟨front, back, hcut⟩ := exists_cut_splitInternalNonRoot h
    exact hcut.keys c hsorted

theorem storeParent_keys (h : Returns (storeParent path page result climb propagate) tree r tree') :
    ∀ c ∈ page.cells, c.deleted = false → isOrderPreservingEncodedKey c.encodedKey = true := by
  intro c hc hlive
  have hkept : c ∈ (removeDeletedCells page).cells := mem_filter.mpr ⟨hc, by rw [hlive]; rfl⟩
  have h := returns_get_bind.mp h
  split at h
  · next staged hstaged =>
    obtain ⟨hb, -⟩ := stagePhysicalPage_ok_iff.mp hstaged
    exact (hb.fits.cells c hc).key
  · obtain ⟨-, h⟩ := returns_guard.mp h
    split at h
    · split at h
      · next staged hstaged =>
        obtain ⟨hb, -⟩ := stagePhysicalPage_ok_iff.mp hstaged
        exact (hb.fits.cells c hkept).key
      · obtain ⟨-, h⟩ := returns_guard.mp h
        exact splitInternalPage_keys h c hkept
    · exact splitInternalPage_keys h c hc

theorem mem_insertCellSorted_twice :
    a ∈ insertCellSorted (insertCellSorted cells a) b ∧
      b ∈ insertCellSorted (insertCellSorted cells a) b := by
  refine ⟨insertCellSorted_perm.mem_iff.mpr (mem_cons_of_mem _ ?_), ?_⟩ <;>
    exact insertCellSorted_perm.mem_iff.mpr mem_cons_self

theorem propagateSplit_keys (h : Returns (propagateSplit path left right result) tree r tree') :
    isOrderPreservingEncodedKey (fenceCellForPage left).encodedKey = true ∧
      isOrderPreservingEncodedKey (fenceCellForPage right).encodedKey = true := by
  cases path with
  | nil =>
    exact (returns_treeError.mp h).elim
  | cons number above =>
    obtain ⟨parent, t, -, h⟩ := returns_bind.mp h
    split at h
    · exact (returns_treeError.mp h).elim
    · next kept hkept =>
      have hkeys := storeParent_keys h
      exact ⟨hkeys _ mem_insertCellSorted_twice.1 rfl, hkeys _ mem_insertCellSorted_twice.2 rfl⟩

/-- Without a live cell the fence has the empty key. -/
theorem liveCells_ne_nil_of_key
    (h : isOrderPreservingEncodedKey (fenceCellForPage page).encodedKey = true) :
    liveCells page ≠ [] := by
  intro hnil
  have hlast : lastLiveCell page = none := by
    rw [lastLiveCell_eq, hnil]
    rfl
  rw [fenceCellForPage, hlast] at h
  have hempty : isOrderPreservingEncodedKey [] = true := h
  cases hempty

/-! ## A cell in its place -/

/-- The cells a request adds to the live ones. -/
def added (cell : IndexBtreeCell) : List IndexBtreeCell := [cell].filter (!·.deleted)

theorem mem_added (h : x ∈ added cell) : x = cell ∧ cell.deleted = false := by
  obtain ⟨hx, hlive⟩ := mem_filter.mp h
  obtain rfl := mem_singleton.mp hx
  rw [Bool.not_eq_true'] at hlive
  exact ⟨rfl, hlive⟩

theorem insertCellSorted_ordered (h : cells.Pairwise fun a b => a.locator ≤ b.locator) :
    (insertCellSorted cells cell).Pairwise fun a b => a.locator ≤ b.locator := by
  have hsorted : cells.Pairwise notBefore := h.imp fun hab => notBefore_iff.mpr hab
  exact (hsorted.orderedInsert cell cells).imp fun hab => notBefore_iff.mp hab

theorem liveCells_insertCellSorted :
    ((insertCellSorted cells cell).filter (!·.deleted)).Perm
      (added cell ++ cells.filter (!·.deleted)) := by
  have hperm := (@insertCellSorted_perm cell cells).filter (!·.deleted)
  rw [← singleton_append, filter_append] at hperm
  exact hperm

/-- The live cells still ascend when a new one is put where it belongs. -/
theorem ascending_insertCellSorted (h : Ascending (U ++ (cells.filter (!·.deleted) ++ V)))
    (hsorted : cells.Pairwise fun a b => a.locator ≤ b.locator)
    (hbefore : ∀ u ∈ U, u.locator < cell.locator) (hbehind : ∀ v ∈ V, cell.locator < v.locator)
    (hnew : cell.deleted = false → ∀ m ∈ cells.filter (!·.deleted), m.locator ≠ cell.locator) :
    Ascending (U ++ ((insertCellSorted cells cell).filter (!·.deleted) ++ V)) := by
  have hperm := @liveCells_insertCellSorted cells cell
  obtain ⟨hU, hMV, hUMV⟩ := pairwise_append.mp h
  obtain ⟨hM, hV, hMV⟩ := pairwise_append.mp hMV
  have hmem : ∀ m ∈ (insertCellSorted cells cell).filter (!·.deleted),
      m = cell ∨ m ∈ cells.filter (!·.deleted) := by
    intro m hm
    rcases mem_append.mp (hperm.subset hm) with hm | hm
    · exact .inl (mem_added hm).1
    · exact .inr hm
  have hdistinct : ((insertCellSorted cells cell).filter (!·.deleted)).Pairwise
      fun a b => a.locator ≠ b.locator := by
    refine (hperm.pairwise_iff fun hab => Ne.symm hab).mpr ?_
    refine pairwise_append.mpr ⟨?_, hM.imp fun hab => ne_of_lt hab, ?_⟩
    · exact (pairwise_singleton _ _).filter _
    · intro a ha m hm
      obtain ⟨rfl, hlive⟩ := mem_added ha
      exact Ne.symm (hnew hlive m hm)
  have hordered := (@insertCellSorted_ordered cells cell hsorted).filter (!·.deleted)
  refine pairwise_append.mpr ⟨hU, pairwise_append.mpr ⟨?_, hV, ?_⟩, ?_⟩
  · exact (hordered.and hdistinct).imp fun hab => lt_of_le_of_ne hab.1 hab.2
  · intro m hm v hv
    rcases hmem m hm with rfl | hm
    · exact hbehind v hv
    · exact hMV m hm v hv
  · intro u hu x hx
    rcases mem_append.mp hx with hm | hv
    · rcases hmem x hm with rfl | hm
      · exact hbefore u hu
      · exact hUMV u hu x (mem_append_left _ hm)
    · exact hUMV u hu x (mem_append_right _ hv)

section Spot

variable {free : UInt32}

/-- The live cells on both sides of the leaf a key belongs to. -/
theorem Arranged.around (h : Arranged tree leaves levels)
    (hleaves : leaves = A ++ c :: B) (hs : Sought key A c B) :
    (∀ u ∈ A.flatMap liveCells, u.locator < key) ∧ ∀ v ∈ B.flatMap liveCells, key < v.locator := by
  have hasc := h.leaves.ascending
  rw [hleaves, flatMap_append] at hasc
  obtain ⟨hA, hcB, -⟩ := pairwise_append.mp hasc
  constructor
  · intro u hu
    obtain ⟨a, ha, hu⟩ := mem_flatMap.mp hu
    refine lt_of_le_of_lt (locator_le_fence ?_ hu) (hs.before a ha)
    exact ((List.pairwise_flatMap.mp hA).1 a ha).imp fun hab => le_of_lt hab
  · intro v hv
    have hB : B ≠ [] := by
      rintro rfl
      cases hv
    have hfilled : liveCells c ≠ [] := by
      refine h.leaves.filled ?_ c (by rw [hleaves]; simp)
      cases hempty : levels.isEmpty with
      | false => rfl
      | true =>
        have hlength := h.tower.above.alone hempty
        have hpos := length_pos_iff.mpr hB
        rw [hleaves, length_append, length_cons] at hlength
        omega
    obtain ⟨front, x, hx⟩ := (eq_nil_or_concat' (liveCells c)).resolve_left hfilled
    have hle : key ≤ (fenceCellForPage c).locator := hs.within.resolve_right hB
    rw [fence_locator hx] at hle
    refine lt_of_le_of_lt hle ((pairwise_append.mp hcB).2.2 x ?_ v hv)
    rw [hx]
    exact mem_append_right _ mem_cons_self

/-- The leaves with the new cell in its leaf. -/
structure Placed (tree : IndexBtreePhysicalTree) (leaves : Level) (levels : List Level) (A : Level)
    (c : IndexBtreePageBody) (B : Level) (cell : IndexBtreeCell) (path : List UInt64) : Prop where
  arranged : Arranged tree leaves levels
  row : leaves = A ++ c :: B
  sought : Sought cell.locator A c B
  path : PathUp levels c.parentPageNumber path
  fresh : cell.deleted = false → ∀ m ∈ leaves.flatMap liveCells, m.locator ≠ cell.locator

theorem Placed.mem (h : Placed tree leaves levels A c B cell path) : c ∈ leaves := by
  rw [h.row]
  simp

section

variable (h : Placed tree leaves levels A c B cell path)
  (hd : d = c.refilled free (insertCellSorted c.cells cell))
include h hd

theorem Placed.ascending : Ascending ((A ++ d :: B).flatMap liveCells) := by
  obtain ⟨hbefore, hbehind⟩ := h.arranged.around h.row h.sought
  have hstored := h.arranged.stored h.mem
  have hasc := h.arranged.leaves.ascending
  rw [h.row, flatMap_append] at hasc
  rw [flatMap_append, hd]
  refine ascending_insertCellSorted hasc hstored.built.fits.ordered hbefore hbehind ?_
  intro hlive m hm
  exact h.fresh hlive m (mem_flatMap.mpr ⟨c, h.mem, hm⟩)

omit h in
theorem live_perm : (liveCells d).Perm (added cell ++ liveCells c) := by
  rw [hd]
  exact liveCells_insertCellSorted

theorem Placed.perm :
    ((A ++ d :: B).flatMap liveCells).Perm (added cell ++ leaves.flatMap liveCells) := by
  rw [h.row, flatMap_append, flatMap_append]
  refine (((live_perm hd).append_right _).append_left _).trans ?_
  rw [append_assoc]
  exact List.perm_append_comm_assoc _ _ _

theorem Placed.filled (htop : levels.isEmpty = false) : liveCells d ≠ [] := by
  have hfilled := h.arranged.leaves.filled htop c h.mem
  have hlive := live_perm hd
  intro hnil
  rw [hnil] at hlive
  exact hfilled (List.append_eq_nil_iff.mp hlive.nil_eq.symm).2

end

/-- What an insertion makes of the index. -/
def Inserted (tree : IndexBtreePhysicalTree) (leaves : Level) (levels : List Level)
    (cell : IndexBtreeCell) (tree' : IndexBtreePhysicalTree) : Prop :=
  ∃ leaves' levels', Arranged tree' leaves' levels' ∧
    (SameSetup tree tree' ∧ Grown tree levels 2 tree' levels') ∧
    (leaves'.flatMap liveCells).Perm (added cell ++ leaves.flatMap liveCells)

section

variable (h : Placed tree leaves levels A c B cell path)
  (hd : d = c.refilled free (insertCellSorted c.cells cell))
include h hd

theorem Placed.fits :
    LeafFits levels.isEmpty (A ++ d :: B) :=
  (h.row ▸ h.arranged.leaves).refill hd (h.filled hd) (h.ascending hd)

/-- The leaf is stored with the cell, and its fence is the one out of date. -/
theorem Placed.pending (hb : Buildable d tree.pageSize) :
    Pending (store tree d) 1 (A ++ d :: B) levels (A.map (·.up)) c.up
      ((Change.fence d).entries c.parentPageNumber) (B.map (·.up)) c.parentPageNumber path := by
  have hwritten := h.arranged.refill_written h.row hd hb
  have hpending : Pending (store tree d) 1 (A ++ ([d] ++ B)) levels
      (A.map (·.up)) c.up ([d].map (·.up)) (B.map (·.up)) c.parentPageNumber
      path := by
    refine h.arranged.pending h.row h.path hwritten rfl (cons_ne_nil _ _)
      ?_ ((h.fits hd).fences_ascending ?_)
    · rw [hd]
      exact forall_mem_singleton.mpr rfl
    · intro htop
      have hlength := h.arranged.tower.above.alone htop
      rw [h.row] at hlength
      simp only [length_append] at hlength ⊢
      exact hlength
  have hentry : ([d].map (·.up)) = (Change.fence d).entries c.parentPageNumber := by
    rw [hd]
    rfl
  rw [hentry] at hpending
  exact hpending

/-- The leaf has room for the cell. -/
theorem Placed.in_place (hb : Buildable d tree.pageSize)
    (hr : Returns (updateParentFence path d result) (store tree d) r tree') :
    Inserted tree leaves levels cell tree' := by
  have hwritten := h.arranged.refill_written h.row hd hb
  have hnumber : c.up.1.childPageNumber = d.pageNumber := by
    rw [hd]
    rfl
  obtain ⟨leaves', levels', hc⟩ := carry_ok (.fence d) _ (h.pending hd hb) hnumber hr
  obtain ⟨harranged, hlive⟩ := hc.arranged (h.fits hd)
  obtain ⟨taken, hmany, hnext⟩ := hc.grown.numbers
  refine ⟨leaves', levels', harranged, ⟨hwritten.setup.trans hc.written.setup,
    hc.grown.height, taken, hmany.trans (Nat.le_succ _), hnext⟩, ?_⟩
  rw [hlive]
  exact h.perm hd

end

end Spot

/-! ## A leaf that is split -/

/-- The halves are stored with the page behind them before the split is carried
on. -/
theorem returns_splitNonRootLeaf (h : HalfCut tree leaf .leaf cells front back)
    (hlevel : leaf.treeLevel = 0) (hlink : leaf.rightSiblingPageNumber = firstOr (·.pageNumber) B 0)
    (hstored : ∀ b ∈ B, Stored tree b) :
    Returns (splitNonRootLeaf path leaf cells) tree r tree' ↔
      Returns (propagateSplit path (leaf.keptHalf tree front) (leaf.nextHalf tree .leaf back)
        (splitRecorded {} tree.rootPageNumber (leaf.keptHalf tree front)
          (leaf.nextHalf tree .leaf back)))
        (storeAll (bump tree) (leaf.keptHalf tree front :: leaf.nextHalf tree .leaf back ::
          (behind tree B).take 1)) r tree' := by
  have hbuilt := buildable_halves h hstored
  -- the code writes the level of a leaf's halves out as 0
  cases leaf
  cases hlevel
  rw [splitNonRootLeaf, returns_takePageNumber_bind, returns_get_bind]
  refine Iff.trans (Returns.bind_iff (Cut.returns h rfl)) ?_
  refine Iff.trans (Returns.bind_iff (returns_fetchOldRight hlink
    fun b hb => stored_bump (hstored b hb))) ?_
  exact returns_store_bind.trans (and_iff_right hbuilt)

theorem exists_cut_splitNonRootLeaf (hlevel : leaf.treeLevel = 0)
    (h : Returns (splitNonRootLeaf path leaf cells) tree r tree') :
    ∃ front back, HalfCut tree leaf .leaf cells front back := by
  rw [splitNonRootLeaf, returns_takePageNumber_bind, returns_get_bind] at h
  have hcut := exists_cut_of_returns h
  cases leaf
  cases hlevel
  exact hcut

theorem returns_splitRootLeaf (h : RootCut tree leaf .leaf cells front back)
    (hlevel : leaf.treeLevel = 0) (hleft : left = leaf.newLeft tree .leaf front)
    (hright : right = leaf.newRight tree .leaf back) :
    Returns (splitRootLeaf leaf cells) tree r tree' ↔
      (∀ b ∈ [left, right, leaf.raisedOver left right], Buildable b tree.pageSize) ∧
      { splitRecorded {} leaf.pageNumber left right with
          rootSplitPerformed := true } = r ∧
      storeAll (bump (bump tree)) [left, right, leaf.raisedOver left right] =
        tree' := by
  subst hleft hright
  cases leaf
  cases hlevel
  rw [splitRootLeaf, returns_takePageNumber_bind, returns_takePageNumber_bind, returns_get_bind]
  refine Iff.trans (Returns.bind_iff (Cut.returns h rfl)) ?_
  exact returns_store_bind.trans (and_congr_right fun _ => returns_pure)

theorem exists_cut_splitRootLeaf (hlevel : leaf.treeLevel = 0)
    (h : Returns (splitRootLeaf leaf cells) tree r tree') :
    ∃ front back, RootCut tree leaf .leaf cells front back := by
  rw [splitRootLeaf, returns_takePageNumber_bind, returns_takePageNumber_bind,
    returns_get_bind] at h
  have hcut := exists_cut_of_returns h
  cases leaf
  cases hlevel
  exact hcut

section Halving

variable {free : UInt32}

theorem live_relinked : (relinked pageSize n Y).flatMap liveCells = Y.flatMap liveCells := by
  rw [flatMap_def, flatMap_def, relinked_map _ fun _ => rfl]

/-- The halves of a leaf have its live cells between them. -/
theorem live_halves (hl : left.cells = front) (hr : right.cells = back)
    (hcells : d.cells = front ++ back) : [left, right].flatMap liveCells = liveCells d := by
  rw [flatMap_cons, flatMap_singleton, liveCells, liveCells, liveCells,
    hl, hr, hcells, filter_append]

theorem LeafFits.halves (h : LeafFits false (A ++ c :: B))
    (hd : d = c.refilled free (front ++ back)) (hleft : liveCells (d.leftHalf n front) ≠ [])
    (hright : liveCells (d.rightHalf index .leaf n back) ≠ [])
    (hasc : Ascending ((A ++ d :: B).flatMap liveCells)) :
    LeafFits false (A ++ ([d.leftHalf n front,
      d.rightHalf index .leaf n back] ++ relinked pageSize n B)) := by
  have hcells : d.cells = front ++ back := by
    rw [hd]
    rfl
  subst hd
  have hc : c ∈ A ++ c :: B := by simp
  refine ⟨?_, ?_, ?_, ?_, ?_⟩
  · exact forall_halves (fun _ hy => hy) (h.level c hc) (h.level c hc) h.level
  · exact forall_halves (fun _ hy => hy) (h.kind c hc) rfl h.kind
  · exact linked_halves h.linked rfl rfl rfl rfl rfl
  · intro htop
    exact forall_halves (fun _ hy => hy) hleft hright (h.filled htop)
  · rw [flatMap_append, flatMap_append, live_relinked, live_halves rfl rfl hcells]
    rw [flatMap_append] at hasc
    exact hasc

section

variable (h : Placed tree leaves levels A c B cell path)
  (hd : d = c.refilled free (insertCellSorted c.cells cell)) (htop : levels.isEmpty = false)
  (hcells : insertCellSorted c.cells cell = front ++ back)
include h hd htop hcells

/-- The halves of a leaf are stored in its place, and the level above finds two
entries in the place of one. -/
theorem Placed.pending_halves (hleft : left = d.keptHalf tree front)
    (hright : right = d.nextHalf tree .leaf back)
    (hleftLive : liveCells left ≠ []) (hrightLive : liveCells right ≠ [])
    (hbuilt : ∀ b ∈ left :: right :: (behind tree B).take 1, Buildable b tree.pageSize) :
    SameSetup tree (storeAll (bump tree) (left :: right :: (behind tree B).take 1)) ∧
      LeafFits levels.isEmpty (A ++ ([left, right] ++ behind tree B)) ∧
      Pending (storeAll (bump tree) (left :: right :: (behind tree B).take 1)) 1
        (A ++ ([left, right] ++ behind tree B)) levels (A.map (·.up)) c.up
        ((Change.split left right).entries c.parentPageNumber) (B.map (·.up))
        c.parentPageNumber path := by
  have hwritten : Rewritten tree (leaves ++ levels.flatten) (storeAll (bump tree)
      (left :: right :: (behind tree B).take 1)) ((A ++ ([left, right] ++ behind tree B)) ++
        levels.flatten) := by
    subst hd
    exact @halves_written tree [] leaves A B [] [] [] [] levels.flatten c _ left right front back
      _ _ .leaf hleft hright rfl rfl h.arranged.tower.sound h.arranged.tower.stored
      h.arranged.tower.numbers h.row rfl rfl rfl hbuilt
  have hfits : LeafFits levels.isEmpty (A ++ ([left, right] ++ behind tree B)) := by
    have hold := h.arranged.leaves
    rw [htop, h.row] at hold
    subst hleft hright
    rw [htop]
    exact hold.halves (hcells ▸ hd) hleftLive hrightLive (h.ascending hd)
  have hparent : ∀ z ∈ [left, right], z.parentPageNumber = c.parentPageNumber := by
    rw [hleft, hright, hd]
    exact forall_mem_cons.mpr ⟨rfl, forall_mem_singleton.mpr rfl⟩
  have hpending := h.arranged.pending h.row h.path hwritten up_relinked (cons_ne_nil _ _) hparent
    (hfits.fences_ascending fun hempty => by
      rw [htop] at hempty
      exact absurd hempty Bool.false_ne_true)
  have hentries : [left, right].map (·.up) =
      (Change.split left right).entries c.parentPageNumber := by
    rw [hleft, hright, hd]
    rfl
  rw [hentries] at hpending
  exact ⟨hwritten.setup, hfits, hpending⟩

theorem Placed.halves (hbuilt : ∀ b ∈ d.keptHalf tree front :: d.nextHalf tree .leaf back ::
        (behind tree B).take 1,
      Buildable b tree.pageSize)
    (hr : Returns (propagateSplit path (d.keptHalf tree front) (d.nextHalf tree .leaf back) result)
      (storeAll (bump tree) (d.keptHalf tree front :: d.nextHalf tree .leaf back ::
        (behind tree B).take 1)) r tree') : Inserted tree leaves levels cell tree' := by
  obtain ⟨hleftKey, hrightKey⟩ := propagateSplit_keys hr
  obtain ⟨hsetup, hfits, hpending⟩ := h.pending_halves hd htop hcells rfl rfl
    (liveCells_ne_nil_of_key hleftKey) (liveCells_ne_nil_of_key hrightKey) hbuilt
  have hnumber : c.pageNumber = d.pageNumber := by
    rw [hd]
    rfl
  obtain ⟨leaves', levels', hc⟩ := carry_ok (.split _ _) _ hpending hnumber hr
  obtain ⟨harranged, hlive⟩ := hc.arranged hfits
  obtain ⟨taken, hmany, hnext⟩ := hc.grown.numbers
  rw [storeAll_nextPageNumber] at hnext
  refine ⟨leaves', levels', harranged, ⟨hsetup.trans hc.written.setup, hc.grown.height,
    taken + 1, Nat.succ_le_succ hmany, hnext⟩, ?_⟩
  have hdcells : d.cells = front ++ back := by
    rw [hd, ← hcells]
    rfl
  have hperm := h.perm hd
  rw [flatMap_append] at hperm
  rw [hlive, flatMap_append, flatMap_append, live_relinked, live_halves rfl rfl hdcells]
  exact hperm

end

theorem raisedOver_keys (hb : Buildable (d.raisedOver left right) pageSize) :
    isOrderPreservingEncodedKey (fenceCellForPage left).encodedKey = true ∧
      isOrderPreservingEncodedKey (fenceCellForPage right).encodedKey = true :=
  ⟨(hb.fits.cells _ mem_insertCellSorted_twice.1).key,
    (hb.fits.cells _ mem_insertCellSorted_twice.2).key⟩

/-- The root, as long as it is a leaf, gives way to two leaves. -/
theorem Placed.raised (h : Placed tree leaves [] A c B cell path)
    (hd : d = c.refilled free (insertCellSorted c.cells cell))
    (hcells : insertCellSorted c.cells cell = front ++ back)
    (hleft : left = d.newLeft tree .leaf front) (hright : right = d.newRight tree .leaf back)
    (hbuilt : ∀ b ∈ [left, right, d.raisedOver left right], Buildable b tree.pageSize) :
    Inserted tree leaves [] cell (storeAll (bump (bump tree))
      [left, right, d.raisedOver left right]) := by
  obtain ⟨p, hrow, hroot, -⟩ := h.arranged.tower.above.singleton
  have hone := h.row
  rw [hrow] at hone
  obtain ⟨rfl, rfl, rfl⟩ : A = [] ∧ p = c ∧ B = [] := by
    cases A with
    | nil =>
      obtain ⟨rfl, hB⟩ := List.cons.inj hone
      exact ⟨rfl, rfl, hB.symm⟩
    | cons a A =>
      obtain ⟨-, hrest⟩ := List.cons.inj hone
      exact absurd hrest (by simp)
  have hp : p ∈ leaves := by
    rw [hrow]
    exact mem_singleton_self p
  have hbroot := hbuilt (d.raisedOver left right) (by simp)
  obtain ⟨hleftKey, hrightKey⟩ := raisedOver_keys hbroot
  have hfilled : ∀ z ∈ [left, right], liveCells z ≠ [] :=
    forall_mem_cons.mpr ⟨liveCells_ne_nil_of_key hleftKey,
      forall_mem_singleton.mpr (liveCells_ne_nil_of_key hrightKey)⟩
  have hdcells : d.cells = front ++ back := by
    rw [hd, ← hcells]
    rfl
  have hall : ([] ++ d :: []).flatMap liveCells = liveCells d := flatMap_singleton _ _
  have hperm := h.perm hd
  have hasc := h.ascending hd
  have hstored := h.arranged.tower.stored
  have hnumbers := h.arranged.tower.numbers
  rw [hrow] at hstored hnumbers
  have hwritten : Rewritten tree [p] (storeAll (bump (bump tree))
      [left, right, d.raisedOver left right]) [left, right, d.raisedOver left right] := by
    refine @raised_written tree [] [] [] _ p d left right front back .leaf
      h.arranged.tower.sound hstored hnumbers ?_ ?_ rfl hleft hright rfl hbuilt <;> rw [hd] <;> rfl
  have hlevel := h.arranged.leaves.level p hp
  have hlive : [left, right].flatMap liveCells = liveCells d := by
    subst hleft hright
    exact live_halves rfl rfl hdcells
  rw [hall, ← hlive] at hasc hperm
  have hlt : (fenceCellForPage left).locator < (fenceCellForPage right).locator :=
    (pairwise_cons.mp (ascending_fences hasc hfilled)).1 _ (by simp)
  subst hleft hright hd
  refine ⟨_, [[_]], ⟨⟨hwritten.sound, ?_,
    hwritten.stored, hwritten.numbers⟩, ?_⟩, ⟨hwritten.setup, le_refl 1,
      2, le_refl 2, storeAll_nextPageNumber⟩, hperm⟩
  · rw [hwritten.setup.root]
    exact above_raisedOver hbroot (h.arranged.leaves.kind p hp)
      (congrArg UInt16.toNat hlevel) hlt rfl rfl hroot
  · refine ⟨?_, ?_, ?_, fun _ => hfilled, hasc⟩
    · exact forall_mem_cons.mpr ⟨hlevel, forall_mem_singleton.mpr hlevel⟩
    · exact forall_mem_cons.mpr ⟨rfl, forall_mem_singleton.mpr rfl⟩
    · exact ⟨rfl, rfl, rfl, rfl, trivial⟩

end Halving

/-! ## The call -/

section Insert

variable {free : UInt32}

section

variable (h : Placed tree leaves levels A c B cell path)
  (hd : d = c.refilled free (insertCellSorted c.cells cell))
include h hd

/-- The leaf in its new form is where the old one was. -/
theorem Placed.refilled :
    d.treeLevel = 0 ∧ (d.pageKind = if levels.isEmpty then .root else .leaf) ∧
      d.rightSiblingPageNumber = firstOr (·.pageNumber) B 0 ∧ ∀ b ∈ B, Stored tree b := by
  have hlinked := h.arranged.leaves.linked
  rw [h.row] at hlinked
  rw [hd]
  refine ⟨h.arranged.leaves.level c h.mem, h.arranged.leaves.kind c h.mem,
    (linked_append.mp hlinked).2.2.1, ?_⟩
  intro b hb
  refine h.arranged.stored ?_
  rw [h.row]
  simp [hb]

theorem Placed.split (hr : Returns (splitLeaf path d) tree r tree') :
    Inserted tree leaves levels cell tree' := by
  obtain ⟨hlevel, hkind, hlink, hstored⟩ := h.refilled hd
  have hcells : d.cells = insertCellSorted c.cells cell := by
    rw [hd]
    rfl
  obtain ⟨-, hr⟩ := returns_guard.mp hr
  cases levels with
  | nil =>
    rw [if_pos ⟨hkind, hlevel⟩] at hr
    obtain ⟨front, back, hcut⟩ := exists_cut_splitRootLeaf hlevel hr
    obtain ⟨hbuilt, -, rfl⟩ := (returns_splitRootLeaf hcut hlevel rfl rfl).mp hr
    exact h.raised hd (hcells ▸ hcut.parts) rfl rfl hbuilt
  | cons row levels =>
    have hnot : ¬(d.pageKind = .root ∧ d.treeLevel = 0) := by
      rw [hkind]
      simp
    rw [if_neg hnot] at hr
    obtain ⟨front, back, hcut⟩ := exists_cut_splitNonRootLeaf hlevel hr
    have hr := (returns_splitNonRootLeaf hcut hlevel hlink hstored).mp hr
    exact h.halves hd rfl (hcells ▸ hcut.parts) (buildable_halves hcut hstored) hr

end

theorem liveCells_refilled_live :
    liveCells (c.refilled free (c.cells.filter (!·.deleted))) = liveCells c := by
  show (c.cells.filter _).filter _ = c.cells.filter _
  rw [filter_filter]
  simp only [Bool.and_self]

theorem fence_of_live (hlive : liveCells d = liveCells c) (hnumber : d.pageNumber = c.pageNumber) :
    fenceCellForPage d = fenceCellForPage c := by
  rw [fenceCellForPage, fenceCellForPage, lastLiveCell_eq, lastLiveCell_eq, hlive, hnumber]

/-- A leaf stored with the same live cells leaves everything else as it is. -/
theorem Arranged.compacted (h : Arranged tree leaves levels) (hleaves : leaves = A ++ c :: B)
    (hd : d = c.refilled free cells) (hlive : liveCells d = liveCells c)
    (hb : Buildable d tree.pageSize) :
    Arranged (store tree d) (A ++ d :: B) levels ∧
      (A ++ d :: B).flatMap liveCells = leaves.flatMap liveCells := by
  have hwritten := h.refill_written hleaves hd hb
  have hnumber : d.pageNumber = c.pageNumber := by
    rw [hd]
    rfl
  have hup : d.up = c.up := by
    rw [IndexBtreePageBody.up, fence_of_live hlive hnumber, hd]
    rfl
  have hall : (A ++ d :: B).flatMap liveCells = leaves.flatMap liveCells := by
    rw [hleaves, flatMap_append, flatMap_cons, flatMap_append, flatMap_cons, hlive]
  have hold := h.leaves
  refine ⟨⟨⟨hwritten.sound, ?_, hwritten.stored, hwritten.numbers⟩, ?_⟩, hall⟩
  · have habove := h.tower.above
    rw [hleaves, map_append, map_cons, ← hup, ← map_cons, ← map_append] at habove
    exact habove
  · rw [hleaves] at hold
    refine hold.refill hd ?_ ?_
    · intro htop
      rw [hlive]
      exact hold.filled htop c (by simp)
    · rw [hall]
      exact h.leaves.ascending

theorem Placed.compacted (h : Placed tree leaves levels A c B cell path)
    (hd : d = c.refilled free (c.cells.filter (!·.deleted))) (hb : Buildable d tree.pageSize) :
    Placed (store tree d) (A ++ d :: B) levels A d B cell path := by
  have hlive : liveCells d = liveCells c := by
    rw [hd]
    exact liveCells_refilled_live
  have hnumber : d.pageNumber = c.pageNumber := by
    rw [hd]
    rfl
  obtain ⟨harranged, hall⟩ := h.arranged.compacted h.row hd hlive hb
  refine ⟨harranged, rfl, ⟨h.sought.before, ?_⟩, ?_, ?_⟩
  · rw [fence_of_live hlive hnumber]
    exact h.sought.within
  · rw [hd]
    exact h.path
  · rw [hall]
    exact h.fresh

theorem insertIntoLeaf_ok (h : Placed tree leaves levels A c B cell path)
    (hr : Returns (insertIntoLeaf path (c.settled tree.pageSize) cell) tree r
      tree') : Inserted tree leaves levels cell tree' := by
  have hr := returns_get_bind.mp hr
  split at hr
  · next staged hstaged =>
    obtain ⟨hb, rfl⟩ := stagePhysicalPage_ok_iff.mp hstaged
    exact h.in_place rfl hb hr
  · obtain ⟨-, hr⟩ := returns_guard.mp hr
    split at hr
    · rw [insertCompacted] at hr
      obtain ⟨staged, t, hstage, hr⟩ := returns_bind.mp hr
      obtain ⟨⟨hb, rfl⟩, rfl⟩ := returns_stagePage.mp hstage
      obtain ⟨u, t, hpublish, hr⟩ := returns_bind.mp hr
      obtain rfl := returns_publishPage.mp hpublish
      have hr := returns_get_bind.mp hr
      have hcompact := h.compacted rfl hb
      have hlive : liveCells (removeDeletedCells (c.settled tree.pageSize)) =
          liveCells c := liveCells_refilled_live
      have hinserted : Inserted (store tree (removeDeletedCells (c.settled tree.pageSize)))
          (A ++ removeDeletedCells (c.settled tree.pageSize) :: B) levels cell tree' := by
        split at hr
        · next staged hstaged =>
          obtain ⟨hb, rfl⟩ := stagePhysicalPage_ok_iff.mp hstaged
          exact hcompact.in_place rfl hb hr
        · exact hcompact.split rfl (returns_guard.mp hr).2
      obtain ⟨leaves', levels', harranged, ⟨hsetup, hgrown⟩, hperm⟩ := hinserted
      refine ⟨leaves', levels', harranged, ⟨⟨hsetup.root, hsetup.pageSize, hsetup.index⟩,
        hgrown.height, hgrown.numbers⟩, ?_⟩
      rw [flatMap_append, flatMap_cons, hlive] at hperm
      rw [h.row, flatMap_append]
      exact hperm
    · exact h.split rfl hr

/-- A successful insertion of a cell that is not yet live keeps the index in
order and adds the cell. -/
theorem Arranged.insert (h : Arranged tree leaves levels) (hfresh : cell.deleted = false →
      ∀ m ∈ leaves.flatMap liveCells, m.locator ≠ cell.locator)
    (hr : Returns (insertIndexBtreeCell cell) tree r tree') :
    Inserted tree leaves levels cell tree' := by
  obtain ⟨-, hr⟩ := returns_guard.mp hr
  obtain ⟨u, -, hr⟩ := returns_ofOutcome_bind.mp hr
  obtain ⟨⟨leaf, path⟩, t, hdescent, hr⟩ := returns_bind.mp hr
  obtain ⟨rfl, A, c, B, rfl, hrow, hsought, hpath⟩ := h.returns_descent hdescent
  obtain ⟨u, -, hr⟩ := returns_ofOutcome_bind.mp hr
  exact insertIntoLeaf_ok ⟨h, hrow, hsought, hpath, hfresh⟩ hr

end Insert

end ScratchBird.Btree
