import ScratchBird.Proofs.BtreeRefill

/-!
# Deleting keeps the index in order

A deletion marks a live cell and, when the leaf is left nearly empty, cleans up:
the leaf borrows a cell from a neighbour, the two are merged, or the tree is
rebuilt from its live entries. In each case the leaves are afterwards arranged
as before, and their live cells are those from before without the one.
-/

namespace ScratchBird.Btree

open Lib List

variable {pageSize : UInt32} {p l d y' z' : IndexBtreePageBody}
  {tree tree' : IndexBtreePhysicalTree} {leaves leaves' : Level} {levels levels' : List Level}
  {cell : IndexBtreeCell} {r : IndexBtreePhysicalDeleteResult} {i : Nat} {n : UInt64}

/-! ## The cell that is to go -/

/-- What a deletion makes of the index. -/
def Deleted (leaves : Level) (cell : IndexBtreeCell) (tree' : IndexBtreePhysicalTree) : Prop :=
  ∃ x leaves' levels', x.locator = cell.locator ∧ Arranged tree' leaves' levels' ∧
    (leaves.flatMap liveCells).Perm (x :: leaves'.flatMap liveCells)

/-- The live cell `x` in its leaf, before it is marked. -/
structure Doomed (tree : IndexBtreePhysicalTree) (leaves : Level) (levels : List Level) (A : Level)
    (c : IndexBtreePageBody) (B : Level) (us : List IndexBtreeCell) (x : IndexBtreeCell)
    (vs : List IndexBtreeCell) (path : List UInt64) : Prop where
  arranged : Arranged tree leaves levels
  row : leaves = A ++ c :: B
  cells : c.cells = us ++ x :: vs
  live : x.deleted = false
  path : PathUp levels c.parentPageNumber path

/-- The live cells of a leaf beside the one that goes. -/
def spared (us vs : List IndexBtreeCell) : List IndexBtreeCell := (us ++ vs).filter (!·.deleted)

section Doom

variable {A B : Level} {c : IndexBtreePageBody} {us vs cells : List IndexBtreeCell}
  {x : IndexBtreeCell} {free : UInt32} {path : List UInt64}
  {result : IndexBtreePhysicalDeleteResult}

section

variable (h : Doomed tree leaves levels A c B us x vs path)
include h

theorem Doomed.mem : c ∈ leaves := by
  rw [h.row]
  simp

theorem Doomed.perm :
    (leaves.flatMap liveCells).Perm
      (x :: (A.flatMap liveCells ++ (spared us vs ++ B.flatMap liveCells))) := by
  have hc : liveCells c = us.filter (!·.deleted) ++ x :: vs.filter (!·.deleted) := by
    rw [liveCells, h.cells, filter_append, filter_cons, h.live]
    rfl
  rw [h.row, flatMap_append, flatMap_cons, hc, spared, filter_append]
  simp only [append_assoc]
  refine List.Perm.trans ?_ perm_middle
  exact perm_middle.append_left _

theorem Doomed.ascending :
    Ascending (A.flatMap liveCells ++ (spared us vs ++ B.flatMap liveCells)) := by
  have hasc := h.arranged.leaves.ascending
  rw [h.row, flatMap_append] at hasc
  refine hasc.sublist ((List.Sublist.refl _).append (List.Sublist.append ?_ (List.Sublist.refl _)))
  rw [liveCells, h.cells]
  exact ((List.Sublist.refl us).append (List.sublist_cons_self x vs)).filter _

theorem Doomed.deleted (hx : x.locator = cell.locator) (h' : Arranged tree' leaves' levels')
    (hlive : leaves'.flatMap liveCells =
      A.flatMap liveCells ++ (spared us vs ++ B.flatMap liveCells)) :
    Deleted leaves cell tree' := by
  refine ⟨x, leaves', levels', hx, h', ?_⟩
  rw [hlive]
  exact h.perm

theorem Doomed.refilled (hd : d = c.refilled free cells) (hlive : liveCells d = spared us vs)
    (hfilled : levels.isEmpty = false → spared us vs ≠ [])
    (hb : Buildable d tree.pageSize) : Refilled tree leaves levels A c d B path := by
  refine h.arranged.refilled h.row h.path hd hb (by rw [hlive]; exact hfilled) ?_
  rw [flatMap_append, flatMap_cons, hlive]
  exact h.ascending

/-- The leaf alone is changed. -/
theorem Doomed.in_place (hx : x.locator = cell.locator) (hd : d = c.refilled free cells)
    (hlive : liveCells d = spared us vs) (hfilled : levels.isEmpty = false → spared us vs ≠ [])
    (hb : Buildable d tree.pageSize)
    (hr : Returns (updateParentAfterLeafMutation path d result) (store tree d) r
      tree') : Deleted leaves cell tree' := by
  have hall : (A ++ d :: B).flatMap liveCells =
      A.flatMap liveCells ++ (spared us vs ++ B.flatMap liveCells) := by
    rw [flatMap_append, flatMap_cons, hlive]
  obtain ⟨levels', h'⟩ := (h.refilled hd hlive hfilled hb).arranged hr
  exact h.deleted hx h' hall

end

/-- The tree is rebuilt without the cell. -/
theorem rebuildLeafDeleteStructuralCompaction_ok (h : Arranged tree leaves levels)
    (hr : Returns (rebuildLeafDeleteStructuralCompaction cell n result) tree r
      tree') : Deleted leaves cell tree' := by
  have hr := returns_get_bind.mp hr
  obtain ⟨entries, hcollect, hr⟩ := returns_ofOutcome_bind.mp hr
  rw [h.collectRepairLiveEntries_eq] at hcollect
  cases hcollect
  obtain ⟨hany, hr⟩ := returns_guard.mp hr
  obtain ⟨rebuilt, hrebuild, hr⟩ := returns_ofOutcome_bind.mp hr
  obtain ⟨-, rfl⟩ := returns_pure.mp hr
  rw [Bool.not_eq_true', Bool.not_eq_false, any_eq_true] at hany
  obtain ⟨y, hy, hsame⟩ := hany
  obtain ⟨x, front, back, -, hx, hsplit, herase⟩ :=
    @List.exists_of_eraseP _ (sameLiveEntry · cell) _ y hy hsame
  have hsub := List.eraseP_sublist (l := leaves.flatMap liveCells) (p := (sameLiveEntry · cell))
  obtain ⟨leaves', levels', h', hperm⟩ := rebuild_ok
    (fun c hc => h.plain c (hsub.subset hc)) (h.leaves.ascending.sublist hsub)
    (atStage_ok_iff.mp hrebuild)
  refine ⟨x, leaves', levels', locator_eq_of_sameLiveEntry hx, h', ?_⟩
  rw [herase] at hperm
  rw [hsplit]
  exact perm_middle.trans (hperm.symm.cons x)

end Doom

/-! ## Neighbours -/

section Neighbours

variable {A B A₀ B₀ : Level} {c y z kept removed : IndexBtreePageBody}
  {us vs cy cz : List IndexBtreeCell} {x : IndexBtreeCell} {free fy fz : UInt32}
  {path : List UInt64} {result : IndexBtreePhysicalDeleteResult}

theorem liveCells_refilled (h : ∀ k ∈ cy, k.deleted = false) :
    liveCells (y.refilled free cy) = cy := liveCells_of_undeleted h

theorem mem_liveCells_deleted {k : IndexBtreeCell} (h : k ∈ liveCells y) : k.deleted = false := by
  have hlive := (mem_filter.mp h).2
  rwa [Bool.not_eq_true'] at hlive

/-- The cells of a row between two others ascend when the whole row does. -/
theorem ascending_middle {U M V : List IndexBtreeCell}
    (h : Ascending (U ++ (M ++ V))) : Ascending M :=
  (pairwise_append.mp (pairwise_append.mp h).2.1).1

/-- Two neighbours of one parent, and the cells they are to hold once the cell is
gone. -/
structure Sharing (tree : IndexBtreePhysicalTree) (leaves : Level) (levels : List Level)
    (A B : Level) (us vs : List IndexBtreeCell) (path : List UInt64) (A₀ : Level)
    (y z : IndexBtreePageBody) (B₀ : Level) (cy cz : List IndexBtreeCell) : Prop where
  row : leaves = A₀ ++ y :: z :: B₀
  live : ∀ k ∈ cy ++ cz, k.deleted = false
  same : z.parentPageNumber = y.parentPageNumber
  path : PathUp levels y.parentPageNumber path
  top : levels.isEmpty = false
  all : A₀.flatMap liveCells ++ ((cy ++ cz) ++ B₀.flatMap liveCells) =
    A.flatMap liveCells ++ (spared us vs ++ B.flatMap liveCells)

theorem Sharing.ascending (hs : Sharing tree leaves levels A B us vs path A₀ y z B₀
      cy cz) (h : Doomed tree leaves levels A c B us x vs path) : Ascending (cy ++ cz) := by
  have hasc := h.ascending
  rw [← hs.all] at hasc
  exact ascending_middle hasc

/-- One of the neighbours has a cell to give. -/
structure Lending (tree : IndexBtreePhysicalTree) (leaves : Level) (levels : List Level)
    (A B : Level) (us vs : List IndexBtreeCell) (path : List UInt64) (A₀ : Level)
    (y z : IndexBtreePageBody) (B₀ : Level) (cy cz : List IndexBtreeCell) : Prop where
  sharing : Sharing tree leaves levels A B us vs path A₀ y z B₀ cy cz
  filled : cy ≠ [] ∧ cz ≠ []
  between : ∀ k ∈ cy, k.locator < (fenceCellForPage z).locator
  counts : cy.length ≤ (liveCells y).length ∧ cz.length ≤ (liveCells z).length

/-- Both leaves are stored, then both fences carried up. -/
def exchange (path : List UInt64) (y z : IndexBtreePageBody)
    (result : IndexBtreePhysicalDeleteResult) : TreeM IndexBtreePhysicalDeleteResult := do
  stagePageForDelete y
  stagePageForDelete z
  let result ← updateParentAfterLeafMutation path y result
  updateParentAfterLeafMutation path z result

theorem Lending.exchanged (hl : Lending tree leaves levels A B us vs path A₀ y z B₀
      cy cz) (h : Doomed tree leaves levels A c B us x vs path)
    (hy : y' = y.refilled fy (sortCells cy)) (hz : z' = z.refilled fz (sortCells cz))
    (hby : Buildable y' tree.pageSize) (hbz : Buildable z' tree.pageSize) :
    liveCells y' = cy ∧ liveCells z' = cz ∧ Exchanged tree leaves levels A₀ y z y' z' B₀ path := by
  have hs := hl.sharing
  obtain ⟨hascY, hascZ, -⟩ := pairwise_append.mp (hs.ascending h)
  rw [sortCells_of_ascending hascY] at hy
  rw [sortCells_of_ascending hascZ] at hz
  have hliveY : liveCells y' = cy := by
    rw [hy]
    exact liveCells_refilled fun k hk => hs.live k (mem_append_left _ hk)
  have hliveZ : liveCells z' = cz := by
    rw [hz]
    exact liveCells_refilled fun k hk => hs.live k (mem_append_right _ hk)
  have hfence : (fenceCellForPage y').locator < (fenceCellForPage z).locator := by
    obtain ⟨front, k, hk⟩ := (eq_nil_or_concat' cy).resolve_left hl.filled.1
    rw [fence_locator (hliveY.trans hk)]
    exact hl.between k (by rw [hk]; simp)
  refine ⟨hliveY, hliveZ, h.arranged.exchanged hs.row hs.same hs.path hy hz hby hbz
    (by rw [hliveY]; exact hl.filled.1) (by rw [hliveZ]; exact hl.filled.2) hs.top ?_ hfence⟩
  rw [flatMap_append, flatMap_cons, flatMap_cons, hliveY, hliveZ, ← append_assoc cy, hs.all]
  exact h.ascending

/-- Cells moved between two neighbours of one parent. -/
theorem Doomed.borrow (h : Doomed tree leaves levels A c B us x vs path)
    (hx : x.locator = cell.locator) (hl : Lending tree leaves levels A B us vs path A₀ y z B₀ cy cz)
    (hr : Returns (exchange path (y.refilled fy (sortCells cy))
      (z.refilled fz (sortCells cz)) result) tree r tree') : Deleted leaves cell tree' := by
  obtain ⟨hby, hr⟩ := returns_stagePageForDelete_bind.mp hr
  obtain ⟨hbz, hr⟩ := returns_stagePageForDelete_bind.mp hr
  obtain ⟨result', t, hr₁, hr₂⟩ := returns_bind.mp hr
  obtain ⟨hliveY, hliveZ, he⟩ := hl.exchanged h rfl rfl hby hbz
  obtain ⟨levels', h'⟩ := he.arranged hr₁ hr₂
  refine h.deleted hx h' ?_
  rw [flatMap_append, flatMap_cons, flatMap_cons, hliveY, hliveZ, ← hl.sharing.all, append_assoc]

theorem returns_storeMerged (hlink : removed.rightSiblingPageNumber =
      firstOr (·.pageNumber) B 0) (hstored : ∀ b ∈ B, Stored tree b) :
    Returns (storeMerged path kept removed
      ((mergedLeaf kept removed).laidOut tree.pageSize) result) tree r tree' ↔
      Returns (removeChildFenceAndMaybeCollapse path (mergedLeaf kept removed) removed.pageNumber
        { result with
          mergePerformed := true
          keptPageNumber := kept.pageNumber
          removedPageNumber := removed.pageNumber })
        (storeAll tree (mergedLeaf kept removed ::
          (relinked tree.pageSize kept.pageNumber B).take 1)) r tree' := by
  have hpublish : Returns (publishPages ((mergedLeaf kept removed ::
      (relinked tree.pageSize kept.pageNumber B).take 1).map
        (·.laidOut tree.pageSize))) tree () _ := (returns_publishPages_laidOut rfl).mpr rfl
  rw [storeMerged, (returns_fetchOldRight hlink hstored).bind_iff]
  refine Iff.trans (Returns.bind_iff (returns_stagePages.mpr
    ⟨⟨buildable_relinked hstored, rfl⟩, rfl⟩)) ?_
  exact Returns.bind_iff hpublish

section

variable (hs : Sharing tree leaves levels A B us vs path A₀ y z B₀ cy cz)
include hs

theorem Sharing.mem : y ∈ leaves ∧ z ∈ leaves := by
  rw [hs.row]
  simp

theorem Sharing.links (h : Arranged tree leaves levels) :
    z.rightSiblingPageNumber = firstOr (·.pageNumber) B₀ 0 ∧ ∀ b ∈ B₀, Stored tree b := by
  constructor
  · have hlinked := h.leaves.linked
    rw [hs.row] at hlinked
    exact (linked_append.mp hlinked).2.2.2.2.1
  · intro b hb
    exact h.stored (by simp [hs.row, hb])

theorem Sharing.merged (h : Doomed tree leaves levels A c B us x vs path)
    (hkept : kept = y.refilled fy cy) (hremoved : removed = z.refilled fz cz) (hne : cy ++ cz ≠ [])
    (hbuilt : ∀ b ∈ mergedLeaf kept removed ::
      (relinked tree.pageSize y.pageNumber B₀).take 1, Buildable b tree.pageSize) :
    liveCells (mergedLeaf kept removed) = cy ++ cz ∧
      Merged tree leaves levels A₀ y z (mergedLeaf kept removed) B₀ path := by
  have hm : mergedLeaf kept removed = y.absorbing z fy (cy ++ cz) := by
    rw [hkept, hremoved]
    show ({ y.refilled fy cy with
      cells := sortCells (cy ++ cz)
      rightSiblingPageNumber := z.rightSiblingPageNumber } : IndexBtreePageBody) = _
    rw [sortCells_of_ascending (hs.ascending h)]
    rfl
  have hlive : liveCells (mergedLeaf kept removed) = cy ++ cz := by
    rw [hm]
    exact liveCells_of_undeleted hs.live
  refine ⟨hlive, h.arranged.merged hs.row hs.same hs.path hm hbuilt (by rwa [hlive]) hs.top ?_⟩
  rw [flatMap_append, flatMap_cons, hlive, hs.all]
  exact h.ascending

end

/-- One of two neighbours of one parent takes over the other. -/
theorem Doomed.merge (h : Doomed tree leaves levels A c B us x vs path)
    (hx : x.locator = cell.locator) (hs : Sharing tree leaves levels A B us vs path A₀ y z B₀ cy cz)
    (hkept : kept = y.refilled fy cy) (hremoved : removed = z.refilled fz cz) (hne : cy ++ cz ≠ [])
    (hb : Buildable (mergedLeaf kept removed) tree.pageSize)
    (hr : Returns (storeMerged path kept removed
      ((mergedLeaf kept removed).laidOut tree.pageSize) result) tree r tree') :
    Deleted leaves cell tree' := by
  subst hkept
  subst hremoved
  obtain ⟨hlink, hstored⟩ := hs.links h.arranged
  have hlink : (z.refilled fz cz).rightSiblingPageNumber = _ := hlink
  rw [returns_storeMerged hlink hstored] at hr
  obtain ⟨hlive, hm⟩ := hs.merged h rfl rfl hne
    (forall_mem_cons.mpr ⟨hb, buildable_relinked hstored⟩)
  obtain ⟨leaves', levels', h', hlive'⟩ := hm.arranged hr
  refine h.deleted hx h' (hlive'.trans ?_)
  rw [flatMap_append, flatMap_cons, hlive, ← hs.all]

end Neighbours

/-- What a deletion comes down to once the leaf of the cell has been found. -/
inductive Course (tree : IndexBtreePhysicalTree)
    (leaves : Level) (levels : List Level)
    (cell : IndexBtreeCell) : TreeM IndexBtreePhysicalDeleteResult → Prop
  | inPlace {A c B us x vs path free cells result}
      (h : Doomed tree leaves levels A c B us x vs path) (hx : x.locator = cell.locator)
      (hcells : cells = us ++ { x with deleted := true } :: vs ∨ cells = spared us vs)
      (hfilled : levels.isEmpty = false → spared us vs ≠ []) : Course tree leaves levels cell (do
        stagePageForDelete (c.refilled free cells)
        updateParentAfterLeafMutation path (c.refilled free cells) result)
  | exchange {A c B us x vs path A₀ y z B₀ cy cz fy fz result}
      (h : Doomed tree leaves levels A c B us x vs path) (hx : x.locator = cell.locator)
      (hl : Lending tree leaves levels A B us vs path A₀ y z B₀ cy cz) :
      Course tree leaves levels cell (exchange path
        (y.refilled fy (sortCells cy)) (z.refilled fz (sortCells cz)) result)
  | merge {A c B us x vs path A₀ y z B₀ cy cz fy fz kept removed result}
      (h : Doomed tree leaves levels A c B us x vs path) (hx : x.locator = cell.locator)
      (hs : Sharing tree leaves levels A B us vs path A₀ y z B₀ cy cz)
      (hkept : kept = y.refilled fy cy) (hremoved : removed = z.refilled fz cz)
      (hne : cy ++ cz ≠ []) (hb : Buildable (mergedLeaf kept removed) tree.pageSize) :
      Course tree leaves levels cell (storeMerged path kept removed
        ((mergedLeaf kept removed).laidOut tree.pageSize) result)
  | compact {A c B us x vs path free leaf result}
      (h : Doomed tree leaves levels A c B us x vs path) (hx : x.locator = cell.locator)
      (hleaf : leaf = c.refilled free (spared us vs)) :
      Course tree leaves levels cell (compactWholeTree leaf cell result)

/-- The cell that goes has the locator of the request. -/
theorem Course.found {run : TreeM IndexBtreePhysicalDeleteResult}
    (h : Course tree leaves levels cell run) :
    ∃ m ∈ leaves.flatMap liveCells, m.locator = cell.locator := by
  cases h with
  | inPlace h hx => exact ⟨_, h.perm.mem_iff.mpr mem_cons_self, hx⟩
  | exchange h hx => exact ⟨_, h.perm.mem_iff.mpr mem_cons_self, hx⟩
  | merge h hx => exact ⟨_, h.perm.mem_iff.mpr mem_cons_self, hx⟩
  | compact h hx => exact ⟨_, h.perm.mem_iff.mpr mem_cons_self, hx⟩

/-! ## The call -/

section Call

variable {A B : Level} {c leaf : IndexBtreePageBody} {us vs cells : List IndexBtreeCell}
  {x : IndexBtreeCell} {free : UInt32} {path : List UInt64}
  {result : IndexBtreePhysicalDeleteResult}

/-- A sibling as it is fetched for a deletion. -/
def neighbour (pageSize : UInt32) (p : IndexBtreePageBody) :
    IndexBtreePageBody :=
  removeDeletedCells (p.settled pageSize)

/-- A leaf left with fewer than two cells and the one behind it, which has none to
lend, do not fit on one page. -/
def TooWide (tree : IndexBtreePhysicalTree) (B : Level) (leaf : IndexBtreePageBody) : Prop :=
  isUnderfilledNonRoot leaf = true ∧ ∃ n, B.head? = some n ∧
    sameParentAndLevel leaf (neighbour tree.pageSize n) = true ∧
    canLend (neighbour tree.pageSize n) leaf = false ∧
    ¬Buildable (mergedLeaf leaf (neighbour tree.pageSize n)) tree.pageSize

theorem neighbour_eq : ∃ free, neighbour pageSize p = p.refilled free (liveCells p) := ⟨_, rfl⟩

theorem reads_stagePage : Reads (stagePage leaf) := reads_get.bind fun _ => reads_ofOutcome

theorem returns_fetchSibling {o : Option IndexBtreePageBody}
    (hn : n = (o.map (·.pageNumber)).getD 0) (hstored : ∀ p ∈ o, Stored tree p) :
    Returns (fetchSibling n) tree (o.map (neighbour tree.pageSize)) tree := by
  rw [fetchSibling]
  cases o with
  | none =>
    rw [if_pos (show n = 0 from hn)]
    exact returns_pure.mpr ⟨rfl, rfl⟩
  | some p =>
    have hp := hstored p rfl
    have hne : n ≠ 0 := by
      rw [hn]
      exact hp.built.fits.number
    rw [if_neg hne, hp.returns_fetch_bind hn.symm]
    exact returns_pure.mpr ⟨rfl, rfl⟩

/-- The neighbour a cell or a leaf is taken from hangs under the same parent. -/
theorem neighbour_parent (hleaf : leaf = c.refilled free (spared us vs))
    (h : sameParentAndLevel (neighbour pageSize p) leaf = true ∨
      sameParentAndLevel leaf (neighbour pageSize p) = true) :
    p.parentPageNumber = c.parentPageNumber := by
  subst hleaf
  simp only [sameParentAndLevel, Bool.and_eq_true, beq_iff_eq] at h
  rcases h with h | h
  · exact h.1.1
  · exact h.1.1.symm

theorem spared_live : ∀ k ∈ spared us vs, k.deleted = false := by
  intro k hk
  have hlive := (mem_filter.mp hk).2
  rwa [Bool.not_eq_true'] at hlive

/-- Two neighbours may part the same cells otherwise. -/
theorem Sharing.regrouped {y z : IndexBtreePageBody} {A₀ B₀} {cy cz dy dz : List IndexBtreeCell}
    (h : Sharing tree leaves levels A B us vs path A₀ y z B₀ cy cz) (hcells : dy ++ dz = cy ++ cz) :
    Sharing tree leaves levels A B us vs path A₀ y z B₀ dy dz :=
  ⟨h.row, hcells ▸ h.live, h.same, h.path, h.top, hcells ▸ h.all⟩

section

variable (h : Doomed tree leaves levels A c B us x vs path)
include h

theorem Doomed.live_length : (liveCells c).length = (spared us vs).length + 1 := by
  rw [liveCells, h.cells, spared, filter_append, filter_append, filter_cons, h.live]
  simp only [length_append, Bool.not_false, if_true, length_cons]
  omega

theorem Doomed.sharing_right (htop : levels.isEmpty = false) {n : IndexBtreePageBody}
    (hn : B.head? = some n) (hparent : n.parentPageNumber = c.parentPageNumber) :
    ∃ B₀, spared us vs ++ liveCells n ≠ [] ∧
      Sharing tree leaves levels A B us vs path A c n B₀ (spared us vs) (liveCells n) := by
  obtain ⟨B₀, rfl⟩ := List.head?_eq_some_iff.mp hn
  refine ⟨B₀, ?_, h.row, ?_, hparent, h.path, htop, ?_⟩
  · have hfilled := h.arranged.leaves.filled htop n (by rw [h.row]; simp)
    simp [hfilled]
  · exact forall_mem_append.mpr ⟨spared_live, fun k hk => mem_liveCells_deleted hk⟩
  · rw [flatMap_cons, append_assoc]

theorem Doomed.sharing_left (htop : levels.isEmpty = false) (hl : A.getLast? = some l)
    (hparent : l.parentPageNumber = c.parentPageNumber) :
    ∃ A₀, liveCells l ++ spared us vs ≠ [] ∧
      Sharing tree leaves levels A B us vs path A₀ l c B (liveCells l) (spared us vs) := by
  obtain ⟨A₀, rfl⟩ := List.getLast?_eq_some_iff.mp hl
  have hrow : leaves = A₀ ++ l :: c :: B := by
    rw [h.row, append_assoc]
    rfl
  refine ⟨A₀, ?_, hrow, ?_, hparent.symm, hparent ▸ h.path, htop, ?_⟩
  · have hfilled := h.arranged.leaves.filled htop l (by rw [hrow]; simp)
    simp [hfilled]
  · exact forall_mem_append.mpr ⟨fun k hk => mem_liveCells_deleted hk, spared_live⟩
  · rw [flatMap_append, flatMap_singleton, append_assoc, append_assoc]

section

variable (hleaf : leaf = c.refilled free (spared us vs)) (htop : levels.isEmpty = false)
include hleaf htop

/-- The left neighbour gives its last cell. -/
theorem Doomed.lending_left
    (hl : A.getLast? = some l) (hlend : canLend (neighbour tree.pageSize l) leaf = true) :
    ∃ A₀ fl cy cz, Lending tree leaves levels A B us vs path A₀ l c B cy cz ∧
      ∀ result, Btree.borrowFromLeft path (neighbour tree.pageSize l) leaf
        result = exchange path (l.refilled fl (sortCells cy)) (c.refilled free (sortCells cz))
          { result with rebalancePerformed := true } := by
  rw [canLend, Bool.and_eq_true, decide_eq_true_eq] at hlend
  obtain ⟨A₀, -, hs⟩ := h.sharing_left htop hl (neighbour_parent hleaf (.inl hlend.1))
  obtain ⟨fl, hn⟩ := @neighbour_eq tree.pageSize l
  rw [hn] at hlend ⊢
  have hlength : 2 < (liveCells l).length := hlend.2
  obtain ⟨front, b, hlive⟩ := (eq_nil_or_concat' (liveCells l)).resolve_left
    (length_pos_iff.mp (by omega))
  have hfront : front ≠ [] := by
    rw [hlive, length_append, List.length_singleton] at hlength
    exact length_pos_iff.mp (by omega)
  have hcells : (l.refilled fl (liveCells l)).cells = front ++ [b] := hlive
  refine ⟨A₀, fl, front, b :: spared us vs, ⟨hs.regrouped ?_,
    ⟨hfront, cons_ne_nil _ _⟩, ?_, ?_⟩, ?_⟩
  · rw [hlive, append_assoc]
    rfl
  · intro k hk
    have hfences := h.arranged.fences_ascending
    rw [hs.row, map_append] at hfences
    have hlt := (pairwise_cons.mp (pairwise_append.mp hfences).2.1).1
      (fenceCellForPage c) mem_cons_self
    rw [fence_locator hlive] at hlt
    refine lt_trans ?_ hlt
    have hasc := hs.ascending h
    rw [hlive] at hasc
    exact (pairwise_append.mp (pairwise_append.mp hasc).1).2.2 k hk b mem_cons_self
  · rw [hlive, length_append, h.live_length]
    exact ⟨Nat.le_add_right _ _, Nat.le_refl _⟩
  · intro result
    rw [Btree.borrowFromLeft, hcells, List.dropLast_concat, getLast?_concat, hleaf]
    rfl

/-- The right neighbour gives its first cell. -/
theorem Doomed.lending_right {n : IndexBtreePageBody} (hn : B.head? = some n)
    (hlend : canLend (neighbour tree.pageSize n) leaf = true) :
    ∃ B₀ fn cy cz, Lending tree leaves levels A B us vs path A c n B₀ cy cz ∧
      ∀ result, Btree.borrowFromRight path leaf (neighbour tree.pageSize n)
        result = exchange path (c.refilled free (sortCells cy)) (n.refilled fn (sortCells cz))
          { result with rebalancePerformed := true } := by
  rw [canLend, Bool.and_eq_true, decide_eq_true_eq] at hlend
  obtain ⟨B₀, -, hs⟩ := h.sharing_right htop hn (neighbour_parent hleaf (.inl hlend.1))
  obtain ⟨fn, heq⟩ := @neighbour_eq tree.pageSize n
  rw [heq] at hlend ⊢
  have hlength : 2 < (liveCells n).length := hlend.2
  obtain ⟨b, back, hlive⟩ := List.exists_cons_of_ne_nil
    (length_pos_iff.mp (show 0 < (liveCells n).length by omega))
  have hback : back ≠ [] := by
    rw [hlive, length_cons] at hlength
    exact length_pos_iff.mp (by omega)
  have hregroup : (spared us vs ++ [b]) ++ back = spared us vs ++ liveCells n := by
    rw [hlive, append_assoc]
    rfl
  have hcells : (n.refilled fn (liveCells n)).cells = b :: back := hlive
  refine ⟨B₀, fn, spared us vs ++ [b], back, ⟨hs.regrouped hregroup, ⟨by simp, hback⟩, ?_, ?_⟩, ?_⟩
  · intro k hk
    obtain ⟨front, last, hconcat⟩ := (eq_nil_or_concat' back).resolve_left hback
    have hfence : liveCells n = (b :: front) ++ [last] := by
      rw [hlive, hconcat]
      rfl
    rw [fence_locator hfence]
    have hasc := (hs.regrouped hregroup).ascending h
    exact (pairwise_append.mp hasc).2.2 k hk last (by rw [hconcat]; simp)
  · rw [hlive, length_append, h.live_length]
    exact ⟨Nat.le_refl _, Nat.le_add_right _ _⟩
  · intro result
    rw [Btree.borrowFromRight, hcells, hleaf]
    rfl

end

end

theorem compactWholeTree_ok (h : Arranged tree leaves levels)
    (hr : Returns (compactWholeTree leaf cell result) tree r tree') :
    Deleted leaves cell tree' := by
  obtain ⟨staged, t, hstage, hr⟩ := returns_bind.mp hr
  obtain ⟨-, rfl⟩ := returns_stagePage.mp hstage
  exact rebuildLeafDeleteStructuralCompaction_ok h hr

theorem removeDeletedCells_refilled (h : cells.filter (!·.deleted) = spared us vs) :
    removeDeletedCells (c.refilled free cells) = c.refilled free (spared us vs) := by
  rw [← h]
  rfl

theorem spared_filter : (spared us vs).filter (!·.deleted) = spared us vs := by
  rw [spared, filter_filter]
  simp only [Bool.and_self]

theorem spared_ne_nil (hlive : liveCells d = spared us vs)
    (hcount : 0 < liveCellCount d) : spared us vs ≠ [] := by
  rw [liveCellCount, List.countP_eq_length_filter] at hcount
  rw [← hlive]
  exact length_pos_iff.mp hcount

theorem Doomed.spared_ne_nil_of_full (h : Doomed tree leaves levels A c B us x vs path)
    (htop : levels.isEmpty = false)
    (hfull : (!isUnderfilledNonRoot (c.refilled free (spared us vs))) = true) :
    spared us vs ≠ [] := by
  refine spared_ne_nil (d := c.refilled free (spared us vs)) (liveCells_of_undeleted spared_live) ?_
  have hkind : (c.refilled free (spared us vs)).pageKind = .leaf := by
    refine (h.arranged.leaves.kind c h.mem).trans ?_
    rw [htop]
    rfl
  rw [isUnderfilledNonRoot, hkind] at hfull
  by_contra hzero
  exact absurd hfull (by simp [Nat.eq_zero_of_not_pos hzero])

theorem markDeleted_ok (h : findExactLiveCell c cell = some i) :
    ∃ us x vs, c.cells = us ++ x :: vs ∧ x.deleted = false ∧ x.locator = cell.locator ∧
      (markDeleted c i).cells = us ++ { x with deleted := true } :: vs := by
  rw [findExactLiveCell, List.findIdx?_eq_some_iff_getElem] at h
  obtain ⟨hi, hexact, -⟩ := h
  rw [isExactLocatorCell, Bool.and_eq_true, Bool.and_eq_true, Bool.and_eq_true,
    Bool.not_eq_true', beq_iff_eq, compareIndexBtreeCells_eq, compare_eq_iff_eq] at hexact
  refine ⟨c.cells.take i, c.cells[i], c.cells.drop (i + 1), ?_, hexact.1.1.1, hexact.1.1.2, ?_⟩
  · rw [List.getElem_cons_drop, List.take_append_drop]
  · exact List.modify_eq_take_cons_drop hi

theorem markDeleted_refilled (h : (markDeleted (c.settled pageSize) i).cells =
      us ++ { x with deleted := true } :: vs) :
    markDeleted (c.settled pageSize) i = c.refilled (c.settled pageSize).freeSpaceBytes
        (us ++ { x with deleted := true } :: vs) := by
  rw [← h]
  rfl

theorem filter_marked :
    (us ++ { x with deleted := true } :: vs).filter (!·.deleted) = spared us vs := by
  rw [spared, filter_append, filter_append, filter_cons_of_neg (by simp)]

theorem live_of_kept (h : cells = us ++ { x with deleted := true } :: vs ∨ cells = spared us vs) :
    liveCells (c.refilled free cells) = spared us vs := by
  rcases h with rfl | rfl
  · exact filter_marked
  · exact liveCells_of_undeleted spared_live

section

variable (h : Doomed tree leaves levels A c B us x vs path) (hx : x.locator = cell.locator)
include h hx

section

variable (hleaf : leaf = c.refilled free (spared us vs)) (htop : levels.isEmpty = false)
include hleaf htop

variable (hunder : isUnderfilledNonRoot leaf = true)
include hunder

/-- The leaf takes over the one behind it, or the tree is rebuilt. -/
theorem Doomed.mergeWithRight
    (hlend : (B.head?.map (neighbour tree.pageSize)).filter (canLend · leaf) = none) :
    RunsAs (TooWide tree B leaf) (Course tree leaves levels cell) (Btree.mergeWithRight path leaf
      (B.head?.map (neighbour tree.pageSize)) cell result) tree := by
  cases hB : B.head? with
  | none => exact .of (.compact h hx hleaf)
  | some n =>
    rw [Option.map_some, Btree.mergeWithRight]
    split
    · exact .of (.compact h hx hleaf)
    · next hsame =>
      rw [Bool.not_eq_true, Bool.not_eq_false'] at hsame
      obtain ⟨B₀, hne, hs⟩ := h.sharing_right htop hB (neighbour_parent hleaf (.inr hsame))
      rw [hB, Option.map_some, Option.filter_some_eq_none, Bool.not_eq_true] at hlend
      refine reads_stagePage.bind_runsAs (fun hrefused => ?_) fun staged hstage => ?_
      · refine ⟨hunder, n, hB, hsame, hlend, fun hb => ?_⟩
        exact Succeeds.not_refuses ⟨_, _, returns_stagePage.mpr ⟨⟨hb, rfl⟩, rfl⟩⟩ hrefused
      obtain ⟨⟨hb, rfl⟩, -⟩ := returns_stagePage.mp hstage
      exact .of (.merge h hx hs hleaf rfl hne hb)

/-- The leaf goes into the one before it, when that can be stored. -/
theorem Doomed.mergeWithSibling
    (hlend : (B.head?.map (neighbour tree.pageSize)).filter (canLend · leaf) = none) :
    RunsAs (TooWide tree B leaf) (Course tree leaves levels cell) (Btree.mergeWithSibling path leaf
      (A.getLast?.map (neighbour tree.pageSize))
      (B.head?.map (neighbour tree.pageSize)) cell result) tree := by
  cases hA : A.getLast? with
  | none => exact h.mergeWithRight hx hleaf htop hunder hlend
  | some l =>
    rw [Option.map_some, Btree.mergeWithSibling]
    split
    · exact h.mergeWithRight hx hleaf htop hunder hlend
    · next hsame =>
      rw [Bool.not_eq_true, Bool.not_eq_false'] at hsame
      refine (returns_get.mpr ⟨rfl, rfl⟩).bind_runsAs ?_
      split
      · next staged hstaged =>
        obtain ⟨hb, rfl⟩ := stagePhysicalPage_ok_iff.mp hstaged
        obtain ⟨A₀, hne, hs⟩ := h.sharing_left htop hA (neighbour_parent hleaf (.inl hsame))
        exact .of (.merge h hx hs rfl hleaf hne hb)
      · exact h.mergeWithRight hx hleaf htop hunder hlend

theorem Doomed.borrowOrMerge :
    RunsAs (TooWide tree B leaf) (Course tree leaves levels cell) (Btree.borrowOrMerge path leaf
      (A.getLast?.map (neighbour tree.pageSize))
      (B.head?.map (neighbour tree.pageSize)) cell result) tree := by
  rw [Btree.borrowOrMerge]
  split
  · next page hlender =>
    obtain ⟨hmap, hlend⟩ := Option.filter_eq_some_iff.mp hlender
    obtain ⟨l, hl, rfl⟩ := Option.map_eq_some_iff.mp hmap
    obtain ⟨A₀, fl, cy, cz, hlending, hprogram⟩ := h.lending_left hleaf htop hl hlend
    rw [hprogram]
    exact .of (.exchange h hx hlending)
  · next page _ hlender =>
    obtain ⟨hmap, hlend⟩ := Option.filter_eq_some_iff.mp hlender
    obtain ⟨n, hn, rfl⟩ := Option.map_eq_some_iff.mp hmap
    obtain ⟨B₀, fn, cy, cz, hlending, hprogram⟩ := h.lending_right hleaf htop hn hlend
    rw [hprogram]
    exact .of (.exchange h hx hlending)
  · next hlend => exact h.mergeWithSibling hx hleaf htop hunder hlend

end

/-- A leaf left with fewer than two live cells. -/
theorem Doomed.rebalanceOrMergeLeaf (htop : levels.isEmpty = false) :
    RunsAs (TooWide tree B (c.refilled free (spared us vs))) (Course tree leaves levels cell)
      (Btree.rebalanceOrMergeLeaf path (c.refilled free (spared us vs)) cell result) tree := by
  rw [Btree.rebalanceOrMergeLeaf, removeDeletedCells_refilled spared_filter]
  split
  · next hfull =>
    exact .of (.inPlace h hx (.inr rfl) fun _ => h.spared_ne_nil_of_full htop hfull)
  · next hunder =>
    have hlinked := h.arranged.leaves.linked
    rw [h.row] at hlinked
    obtain ⟨-, hl, hn, -⟩ := linked_append.mp hlinked
    refine (returns_fetchSibling hl fun p hp =>
      h.arranged.stored (by simp [h.row, mem_of_getLast? hp])).bind_runsAs ?_
    refine (returns_fetchSibling hn fun p hp =>
      h.arranged.stored (by simp [h.row, List.mem_of_head? hp])).bind_runsAs ?_
    exact h.borrowOrMerge hx rfl htop (by simpa using hunder)

theorem Doomed.deleteFromLeaf
    (hleaf : leaf = c.refilled free (us ++ { x with deleted := true } :: vs)) {root : UInt64} :
    RunsAs (TooWide tree B (c.refilled free (spared us vs))) (Course tree leaves levels cell)
      (Btree.deleteFromLeaf path leaf cell root) tree := by
  have hlive : liveCells leaf = spared us vs := by
    rw [hleaf]
    exact filter_marked
  have hcompact : removeDeletedCells leaf = c.refilled free (spared us vs) := by
    rw [hleaf]
    exact removeDeletedCells_refilled filter_marked
  have hkind : leaf.pageKind = if levels.isEmpty then .root else .leaf := by
    rw [hleaf]
    exact h.arranged.leaves.kind c h.mem
  rw [Btree.deleteFromLeaf, hcompact]
  split
  · next hmany =>
    rw [Bool.and_eq_true, decide_eq_true_eq] at hmany
    have hne := spared_ne_nil hlive (by omega)
    subst hleaf
    exact .of (.inPlace h hx (.inl rfl) fun _ => hne)
  · split
    · next hroot =>
      cases levels with
      | cons row levels =>
        rw [hroot] at hkind
        cases hkind
      | nil =>
        obtain rfl : path = [] := h.path
        exact .of (.inPlace h hx (.inr rfl) nofun)
    · next hroot =>
      have htop : levels.isEmpty = false := by
        cases hempty : levels.isEmpty with
        | false => rfl
        | true =>
          rw [hempty] at hkind
          exact absurd hkind hroot
      exact h.rebalanceOrMergeLeaf hx htop

end

theorem Arranged.delete_course (h : Arranged tree leaves levels) :
    RunsAs True (fun run => CellFits false cell ∧ Course tree leaves levels cell run)
      (deleteIndexBtreeCell cell) tree := by
  refine (returns_get.mpr ⟨rfl, rfl⟩).bind_runsAs ?_
  split
  · exact runsAs_throw trivial
  · refine reads_ofOutcome.bind_runsAs (fun _ => trivial) fun _ hprobe => ?_
    have hfits := (validatePhysicalPageBody_ok_iff.mp (returns_ofOutcome.mp hprobe).1).cells cell
      mem_cons_self
    refine reads_ofOutcome.bind_runsAs (fun _ => trivial) fun ⟨leaf, path⟩ hdescent => ?_
    obtain ⟨-, A, c, B, rfl, hrow, -, hpath⟩ := h.returns_descent hdescent
    refine reads_ofOutcome.bind_runsAs (fun _ => trivial) fun _ _ => ?_
    split
    · exact runsAs_throw trivial
    · next i hfound =>
      obtain ⟨us, x, vs, hcells, hlive, hx, hmarked⟩ := markDeleted_ok hfound
      have hdoomed : Doomed tree leaves levels A c B us x vs path := ⟨h, hrow, hcells, hlive, hpath⟩
      exact (hdoomed.deleteFromLeaf hx (markDeleted_refilled hmarked)).imp (fun _ => trivial)
        fun _ hcourse => ⟨hfits, hcourse⟩

/-- A successful deletion keeps the index in order and takes away one live cell
of the locator. -/
theorem Arranged.delete (h : Arranged tree leaves levels)
    (hr : Returns (deleteIndexBtreeCell cell) tree r tree') : Deleted leaves cell tree' := by
  obtain ⟨m, ⟨-, hcourse⟩, hr⟩ := h.delete_course.returns hr
  cases hcourse with
  | inPlace hdoomed hx hcells hfilled =>
    obtain ⟨hb, hr⟩ := returns_stagePageForDelete_bind.mp hr
    exact hdoomed.in_place hx rfl (live_of_kept hcells) hfilled hb hr
  | exchange hdoomed hx hl => exact hdoomed.borrow hx hl hr
  | merge hdoomed hx hs hkept hremoved hne hb => exact hdoomed.merge hx hs hkept hremoved hne hb hr
  | compact hdoomed hx hleaf => exact compactWholeTree_ok h hr

end Call

end ScratchBird.Btree
