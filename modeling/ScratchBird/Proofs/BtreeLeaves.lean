import ScratchBird.Proofs.BtreeSplit

/-!
# The leaves and the way down to them

`Arranged` is the invariant of the ordered index: a row of leaves, linked from
left to right, whose live cells ascend across the row, under levels of internal
pages that list them exactly. Only the root may be empty of live cells.

The descent for a key ends at the first leaf whose fence is not below the key,
or at the last leaf, and the path it returns is the way back up.
-/

namespace ScratchBird.Btree

open Lib List

variable {tree tree' : IndexBtreePhysicalTree} {root : UInt64} {height : Nat}
  {row row' leaves A B B' Z : Level} {levels : List Level} {top : Bool} {key : IndexBtreeCell}
  {p c d : IndexBtreePageBody} {path : List UInt64} {cells : List IndexBtreeCell}

/-- The leaves from left to right. A leaf alone is the root. -/
structure LeafFits (top : Bool) (row : Level) : Prop where
  level : ∀ p ∈ row, p.treeLevel = 0
  kind : ∀ p ∈ row, p.pageKind = if top then .root else .leaf
  linked : PageLinks 0 row 0
  filled : top = false → ∀ p ∈ row, liveCells p ≠ []
  ascending : Ascending (row.flatMap liveCells)

structure Arranged (tree : IndexBtreePhysicalTree) (leaves : Level) (levels : List Level)
    : Prop where
  tower : Tower tree 1 leaves levels
  leaves : LeafFits levels.isEmpty leaves

theorem Arranged.stored (h : Arranged tree leaves levels) (hp : p ∈ leaves) : Stored tree p :=
  h.tower.stored p (mem_append_left _ hp)

/-! ## Rows -/

section Rows

variable {entries : List Listing}

theorem liveCells_of_core (h : row'.map (·.core) = row.map (·.core)) :
    row'.flatMap liveCells = row.flatMap liveCells := by
  rw [flatMap_def, flatMap_def, map_eq_of_view _ h fun _ => rfl]

/-- Other cells in the same frames. -/
theorem LeafFits.of_frame (hfits : LeafFits top row) (h : row'.map (·.frame) = row.map (·.frame))
    (hfilled : top = false → ∀ p ∈ row', liveCells p ≠ [])
    (hasc : Ascending (row'.flatMap liveCells)) : LeafFits top row' where
  level := forall_of_view h (fun _ => .rfl) hfits.level
  kind := forall_of_view h (fun _ => .rfl) hfits.kind
  linked := (linked_congr (map_eq_of_view _ h fun _ => rfl)).mpr hfits.linked
  filled := hfilled
  ascending := hasc

theorem LeafFits.of_core (hfits : LeafFits top row)
    (h : row'.map (·.core) = row.map (·.core)) : LeafFits top row' := by
  refine hfits.of_frame (map_eq_of_view _ h fun _ => rfl)
    (fun htop => forall_of_view h (fun _ => .rfl) (hfits.filled htop)) ?_
  rw [liveCells_of_core h]
  exact hfits.ascending

/-- No level is empty. -/
theorem Above.ne_nil (h : Above root height entries levels) :
    entries ≠ [] ∧ ∀ row ∈ levels, row ≠ [] := by
  induction levels generalizing height entries with
  | nil =>
    obtain ⟨f, rfl, -⟩ := h
    exact ⟨cons_ne_nil _ _, forall_mem_nil _⟩
  | cons row levels ih =>
    obtain ⟨rfl, hfits, habove⟩ := h
    obtain ⟨hup, hlevels⟩ := ih habove
    have hrow : row ≠ [] := fun hnil => hup (by rw [hnil]; rfl)
    refine ⟨?_, forall_mem_cons.mpr ⟨hrow, hlevels⟩⟩
    obtain ⟨p, row, rfl⟩ := List.exists_cons_of_ne_nil hrow
    have hcells := hfits.fences p mem_cons_self
    rw [flatMap_cons, IndexBtreePageBody.down]
    simp [hcells]

/-- Stored pages of distinct numbers are no more than the images. -/
theorem length_le_pages {pages : Level}
    (hstored : ∀ p ∈ pages, Stored tree p) (hnumbers : (pageNumbers pages).Nodup) :
    pages.length ≤ tree.pages.length := by
  have hsub : pageNumbers pages ⊆ tree.pages.map (·.pageNumber) := by
    intro n hn
    obtain ⟨p, hp, rfl⟩ := mem_map.mp hn
    obtain ⟨image, himage, hnumber⟩ := exists_image_of_fetch (hstored p hp).fetched
    exact mem_map.mpr ⟨image, himage, hnumber⟩
  have hle := (List.subperm_of_subset hnumbers hsub).length_le
  rwa [length_map, length_map] at hle

/-- The fuel of a descent or a traversal covers the height of the tree. -/
theorem Tower.levels_le (h : Tower tree height row levels) : levels.length < tree.pages.length := by
  obtain ⟨hrow, hlevels⟩ := h.above.ne_nil
  have hpages := length_le_pages h.stored h.numbers
  have hflatten := length_le_flatten hlevels
  have hpos : 0 < row.length := by
    rw [← length_map (·.up)]
    exact length_pos_iff.mpr hrow
  rw [length_append] at hpages
  omega

/-- A row with nothing above it is the root alone. -/
theorem Above.singleton (h : Above root height (row.map (·.up)) []) :
    ∃ p, row = [p] ∧ p.pageNumber = root ∧ p.parentPageNumber = 0 := by
  obtain ⟨f, hrow, hroot⟩ := h
  obtain ⟨p, hp, hup⟩ := List.map_eq_singleton_iff.mp hrow
  obtain ⟨hfence, hparent⟩ := Prod.mk.inj hup
  refine ⟨p, hp, ?_, hparent⟩
  rw [← hroot, ← hfence]
  rfl

/-- The fences of the leaves ascend. -/
theorem LeafFits.fences_ascending (h : LeafFits top leaves)
    (halone : top = true → leaves.length = 1) : Ascending (leaves.map fenceCellForPage) := by
  cases top with
  | true =>
    obtain ⟨p, rfl⟩ := List.length_eq_one_iff.mp (halone rfl)
    exact pairwise_singleton _ _
  | false => exact ascending_fences h.ascending (h.filled rfl)

theorem Above.alone (h : Above root height (row.map (·.up)) levels)
    (hempty : levels.isEmpty = true) : row.length = 1 := by
  rw [List.isEmpty_iff.mp hempty] at h
  obtain ⟨p, rfl, -, -⟩ := h.singleton
  rfl

end Rows

/-! ## The way down -/

/-- Where a key belongs in a row: behind `A`, and not behind `c` unless there is
nothing further. -/
structure Sought (key : Locator) (A : Level) (c : IndexBtreePageBody) (B : Level) : Prop where
  before : ∀ a ∈ A, (fenceCellForPage a).locator < key
  within : key ≤ (fenceCellForPage c).locator ∨ B = []

theorem isLE_compare_iff {a b : IndexBtreeCell} :
    (compareIndexBtreeCellsUnchecked a b).isLE = true ↔ a.locator ≤ b.locator := by
  rw [compareIndexBtreeCells_eq, Ordering.isLE_iff_ne_gt, compare_gt_iff_gt, not_lt]

/-- The fence a descent follows. -/
theorem selectChildPage_cells (hne : p.cells ≠ []) :
    ∃ us f vs, p.cells = us ++ f :: vs ∧ selectChildPage p key = f.childPageNumber ∧
      (∀ u ∈ us, u.locator < key.locator) ∧
      (key.locator ≤ f.locator ∨ vs = [] ∧ f.locator < key.locator) := by
  rw [selectChildPage]
  cases hfind : p.cells.find? (fun fence => (compareIndexBtreeCellsUnchecked key fence).isLE) with
  | some f =>
    obtain ⟨hf, us, vs, hcells, hus⟩ := List.find?_eq_some_iff_append.mp hfind
    refine ⟨us, f, vs, hcells, rfl, ?_, .inl (isLE_compare_iff.mp hf)⟩
    intro u hu
    have hnot := hus u hu
    rw [Bool.not_eq_true', ← Bool.not_eq_true, isLE_compare_iff, not_le] at hnot
    exact hnot
  | none =>
    have hall : ∀ c ∈ p.cells, c.locator < key.locator := by
      intro c hc
      have hnot := List.find?_eq_none.mp hfind c hc
      rwa [isLE_compare_iff, not_le] at hnot
    obtain ⟨us, f, hcells⟩ := (eq_nil_or_concat' p.cells).resolve_left hne
    rw [hcells] at hall ⊢
    refine ⟨us, f, [], rfl, ?_, ?_, .inr ⟨rfl, ?_⟩⟩
    · rw [getLast?_concat]
    · exact fun u hu => hall u (mem_append_left _ hu)
    · exact hall f (mem_append_right _ mem_cons_self)

theorem isInternalLike_of_level (hfits : LevelFits height top row)
    (hpos : 0 < height) (hp : p ∈ row) : isInternalLike p = true := by
  have hkind := hfits.kind p hp
  have hlevel := hfits.level p hp
  rw [isInternalLike, hkind]
  cases top with
  | false => rfl
  | true =>
    have : p.treeLevel > 0 := by
      rw [gt_iff_lt, UInt16.lt_iff_toNat_lt, hlevel]
      exact hpos
    simp [this]

/-- One step down from a page to the child its fences name. -/
theorem descend_step {fuel : Nat} (hinternal : isInternalLike p = true) (hc : Stored tree c)
    (hchild : selectChildPage p key = c.pageNumber) :
    descend tree key (fuel + 1) (p.settled tree.pageSize) path =
      descend tree key fuel (c.settled tree.pageSize) (p.pageNumber :: path) := by
  have hnot : (!isInternalLike (p.settled tree.pageSize)) = false := by
    rw [show isInternalLike (p.settled tree.pageSize) = isInternalLike p from rfl, hinternal]
    rfl
  have hselect : selectChildPage (p.settled tree.pageSize) key = c.pageNumber := hchild
  have hne : c.pageNumber ≠ 0 := hc.built.fits.number
  rw [descend, hnot, hselect, if_neg hne, hc.fetched]
  rfl

/-- Reading the path again, one page further down. -/
theorem validateDescentSteps_concat {top : UInt64} (hp : Stored tree p)
    (hinternal : isInternalLike p = true) (hchild : selectChildPage p key = c.pageNumber)
    (hfence : ∃ f ∈ p.cells, f.childPageNumber = c.pageNumber)
    (h : validateDescentSteps tree key p.pageNumber top path = .ok p.parentPageNumber) :
    validateDescentSteps tree key c.pageNumber top (path ++ [p.pageNumber]) = .ok p.pageNumber := by
  induction path generalizing top with
  | nil =>
    have htop : top = p.parentPageNumber := Except.ok.inj h
    obtain ⟨f, hf, hnumber⟩ := hfence
    have hhigh : f.highKey = true := by rw [(hp.built.fits.cells f hf).highKey, hinternal]
    have hany : (p.settled tree.pageSize).cells.any (fun fence =>
        fence.highKey && fence.childPageNumber == c.pageNumber) = true := by
      refine any_eq_true.mpr ⟨f, hf, ?_⟩
      rw [hhigh, hnumber, beq_self_eq_true, Bool.and_self]
    have hstale : (!isInternalLike (p.settled tree.pageSize) ||
        (p.settled tree.pageSize).parentPageNumber != top) = false := by
      rw [show isInternalLike (p.settled tree.pageSize) = isInternalLike p
        from rfl, hinternal, htop]
      exact bne_self_eq_false _
    rw [nil_append, validateDescentSteps, hp.fetched]
    show (if _ then _ else if _ then _ else if _ then _ else _) = _
    have hselect : selectChildPage (p.settled tree.pageSize) key =
        c.pageNumber := hchild
    rw [hstale, List.headD_nil, if_neg (not_not.mpr hselect), hany]
    rfl
  | cons n path ih =>
    have hhead : (path ++ [p.pageNumber]).headD c.pageNumber = path.headD p.pageNumber := by
      cases path <;> rfl
    obtain ⟨parent, hparent, h⟩ := bind_eq_ok_iff.mp h
    rw [cons_append, validateDescentSteps, hparent]
    show (if _ then _ else if _ then _ else if _ then _ else _) = _
    simp only [descentStale, indexPageError, guard_eq_ok_iff] at h ⊢
    rw [hhead]
    exact ⟨h.1, h.2.1, h.2.2.1, ih h.2.2.2⟩

/-- The children listed by one page, within the row below it. -/
theorem row_split {below X Y : Level} {us vs : List IndexBtreeCell} {f : IndexBtreeCell}
    (h : row.flatMap (·.down) = below.map (·.up)) (hrow : row = X ++ p :: Y)
    (hcells : p.cells = us ++ f :: vs) :
    ∃ A c B, below = A ++ c :: B ∧ A.map fenceCellForPage = X.flatMap (·.cells) ++ us ∧
      c.up = (f, p.pageNumber) ∧ (vs = [] → Y = [] → B = []) := by
  have hdown : p.down = us.map (fun c => (c, p.pageNumber)) ++
      ((f, p.pageNumber) :: vs.map fun c => (c, p.pageNumber)) := by
    rw [IndexBtreePageBody.down, hcells, map_append, map_cons]
  rw [hrow, flatMap_append, flatMap_cons, hdown, append_assoc, ← append_assoc] at h
  obtain ⟨A, rest, rfl, hA, hrest⟩ := map_eq_append_iff.mp h.symm
  obtain ⟨c, B, rfl, hc, hB⟩ := List.map_eq_cons_iff.mp hrest
  refine ⟨A, c, B, rfl, ?_, hc, ?_⟩
  · rw [← map_up_fst, hA, map_append, map_fst_down, map_map]
    congr 1
    exact map_id _
  · intro hvs hY
    rw [hvs, hY] at hB
    exact map_eq_nil_iff.mp hB

/-- The descent reaches the place of the key in any row. The induction is on the
levels above the row. -/
theorem descend_row (hpos : 0 < height)
    (habove : Above tree.rootPageNumber height (row.map (·.up)) levels)
    (hasc : Ascending (row.map fenceCellForPage))
    (hstored : ∀ p ∈ row ++ levels.flatten, Stored tree p) :
    ∃ A c B path root, row = A ++ c :: B ∧ Sought key.locator A c B ∧
      PathUp levels c.parentPageNumber path ∧
      fetchIndexBtreePhysicalPage tree tree.rootPageNumber = .ok root ∧
      validateDescentSteps tree key c.pageNumber 0 path.reverse = .ok c.parentPageNumber ∧
      ∀ fuel, descend tree key (fuel + levels.length) root [] =
        descend tree key fuel (c.settled tree.pageSize) path := by
  induction levels generalizing height row with
  | nil =>
    obtain ⟨c, rfl, hroot, hparent⟩ := habove.singleton
    have hc := hstored c (by simp)
    refine ⟨[], c, [], [], c.settled tree.pageSize, rfl, ⟨?_, .inr rfl⟩, rfl,
      ?_, ?_, fun fuel => rfl⟩
    · exact forall_mem_nil _
    · rw [← hroot]
      exact hc.fetched
    · rw [hparent]
      rfl
  | cons upper levels ih =>
    obtain ⟨hlists, hfits, habove⟩ := habove
    have hcellsAsc : Ascending (upper.flatMap (·.cells)) := by
      rw [← map_fst_down, hlists, map_up_fst]
      exact hasc
    have hupper : ∀ p ∈ upper ++ levels.flatten, Stored tree p :=
      fun p hp => hstored p (mem_append_right _ hp)
    obtain ⟨X, p, Y, path, root, hrow, hsought, hpath, hroot, hsteps,
      hdescend⟩ := ih (Nat.succ_pos height) habove
        (ascending_fences_of_undeleted hcellsAsc hfits.fences hfits.live) hupper
    have hp : p ∈ upper := by
      rw [hrow]
      simp
    obtain ⟨us, f, vs, hcells, hselect, hus, hf⟩ := @selectChildPage_cells key p (hfits.fences p hp)
    obtain ⟨A, c, B, rfl, hA, hc, hB⟩ := row_split hlists hrow hcells
    obtain ⟨hfence, hparent⟩ := Prod.mk.inj hc
    have hchild : c.pageNumber = f.childPageNumber := by
      rw [← hfence]
      rfl
    -- a cell of a page is not above the page's fence
    have hbound : ∀ q ∈ upper, ∀ x ∈ q.cells, x.locator ≤ (fenceCellForPage q).locator := by
      intro q hq x hx
      have hlive := liveCells_of_undeleted (hfits.live q hq)
      refine locator_le_fence ?_ (hlive ▸ hx)
      rw [hlive]
      exact ((List.pairwise_flatMap.mp hcellsAsc).1 q hq).imp fun h => le_of_lt h
    refine ⟨A, c, B, p.pageNumber :: path, root, rfl, ⟨?_, ?_⟩, ?_, hroot, ?_, ?_⟩
    · intro a ha
      have hmem : fenceCellForPage a ∈ X.flatMap (·.cells) ++ us := by
        rw [← hA]
        exact mem_map_of_mem ha
      rcases mem_append.mp hmem with hx | hu
      · obtain ⟨x, hx, hcell⟩ := mem_flatMap.mp hx
        refine lt_of_le_of_lt (hbound x ?_ _ hcell) (hsought.before x hx)
        rw [hrow]
        exact mem_append_left _ hx
      · exact hus _ hu
    · rcases hf with hle | ⟨hvs, hlt⟩
      · left
        rw [hfence]
        exact hle
      · right
        refine hB hvs (hsought.within.resolve_left ?_)
        have hlast : liveCells p = us ++ [f] := by
          rw [liveCells_of_undeleted (hfits.live p hp), hcells, hvs]
        rw [fence_locator hlast, not_le]
        exact hlt
    · exact ⟨p, hp, hparent.symm, path, by rw [hparent], hpath⟩
    · rw [List.reverse_cons, hparent]
      refine validateDescentSteps_concat (hupper p (mem_append_left _ hp))
        (isInternalLike_of_level hfits hpos hp) (hselect.trans hchild.symm)
        ⟨f, ?_, hchild.symm⟩ hsteps
      rw [hcells]
      exact mem_append_right _ mem_cons_self
    · intro fuel
      have hstep := hdescend (fuel + 1)
      rw [show fuel + (upper :: levels).length = fuel + 1 + levels.length by
        rw [length_cons]; omega, hstep]
      exact descend_step (isInternalLike_of_level hfits hpos hp)
        (hstored c (by simp)) (hselect.trans hchild.symm)

theorem LeafFits.not_internal (h : LeafFits top leaves) (hp : p ∈ leaves) :
    isInternalLike p = false := by
  rw [isInternalLike, h.kind p hp, h.level p hp]
  cases top <;> rfl

section

variable (h : Arranged tree leaves levels)
include h

theorem Arranged.fences_ascending :
    Ascending (leaves.map fenceCellForPage) := h.leaves.fences_ascending h.tower.above.alone

/-- A descent ends at the leaf the key belongs to. -/
theorem Arranged.descendFromRoot_eq (key : IndexBtreeCell) :
    ∃ A c B path, leaves = A ++ c :: B ∧ Sought key.locator A c B ∧
      PathUp levels c.parentPageNumber path ∧
      descendFromRoot tree key = .ok (c.settled tree.pageSize, path) ∧
      validateDescentPath tree path (c.settled tree.pageSize) key = .ok () := by
  obtain ⟨A, c, B, path, root, hrow, hsought, hpath, hroot, hsteps, hdescend⟩ :=
    @descend_row tree 1 leaves levels key Nat.one_pos h.tower.above h.fences_ascending
      h.tower.stored
  refine ⟨A, c, B, path, hrow, hsought, hpath, ?_, ?_⟩
  · have hle := h.tower.levels_le
    have hfuel : tree.pages.length + 1 =
        (tree.pages.length - levels.length) + 1 + levels.length := by omega
    have hleaf : (!isInternalLike (c.settled tree.pageSize)) = true := by
      have hnot := h.leaves.not_internal (p := c) (by rw [hrow]; simp)
      rw [show isInternalLike (c.settled tree.pageSize) = isInternalLike c from rfl, hnot]
      rfl
    rw [descendFromRoot, hroot, hfuel]
    show descend tree key (tree.pages.length - levels.length + 1 + levels.length) root [] = _
    rw [hdescend, descend, if_pos hleaf]
  · have hleaf : (!isLeafLike (c.settled tree.pageSize)) = false := by
      have hc : c ∈ leaves := by
        rw [hrow]
        simp
      have hkind := (h.stored hc).built.fits.kind
      rw [show isLeafLike (c.settled tree.pageSize) = isLeafLike c from rfl,
        isLeafLike_eq hkind, h.leaves.not_internal hc]
      rfl
    rw [validateDescentPath, hleaf,
      show (c.settled tree.pageSize).pageNumber = c.pageNumber from rfl, hsteps]
    exact if_neg (not_not.mpr rfl)

theorem Arranged.returns_descent {leaf : IndexBtreePageBody}
    (hr : Returns (ofOutcome (descendFromRoot tree key) : TreeM _) tree (leaf, path) tree') :
    tree = tree' ∧ ∃ A c B, leaf = c.settled tree.pageSize ∧
      leaves = A ++ c :: B ∧ Sought key.locator A c B ∧ PathUp levels c.parentPageNumber path := by
  obtain ⟨A, c, B, path', hrow, hsought, hpath, heq, -⟩ := h.descendFromRoot_eq key
  obtain ⟨hdescent, htree⟩ := returns_ofOutcome.mp hr
  rw [heq] at hdescent
  obtain ⟨rfl, rfl⟩ := Prod.mk.inj (Except.ok.inj hdescent)
  exact ⟨htree, A, c, B, rfl, hrow, hsought, hpath⟩

end

/-! ## A leaf with other cells -/

/-- A leaf with other cells. -/
def IndexBtreePageBody.refilled (c : IndexBtreePageBody) (free : UInt32)
    (cells : List IndexBtreeCell) : IndexBtreePageBody := { c with freeSpaceBytes := free, cells }

section Refilling

variable {free : UInt32}

theorem LeafFits.refill (h : LeafFits top (A ++ c :: B))
    (hd : d = c.refilled free cells) (hfilled : top = false → liveCells d ≠ [])
    (hasc : Ascending ((A ++ d :: B).flatMap liveCells)) : LeafFits top (A ++ d :: B) := by
  refine h.of_frame ?_ ?_ hasc
  · rw [map_append, map_append, hd]
    rfl
  · intro htop q hq
    have hold := h.filled htop q
    simp only [mem_append, mem_cons] at hq hold
    rcases hq with hq | rfl | hq
    · exact hold (.inl hq)
    · exact hfilled htop
    · exact hold (.inr (.inr hq))

/-- Storing a leaf over the one of its number. -/
theorem Arranged.refill_written (h : Arranged tree leaves levels)
    (hleaves : leaves = A ++ c :: B) (hd : d = c.refilled free cells)
    (hb : Buildable d tree.pageSize) :
    Rewritten tree (leaves ++ levels.flatten) (store tree d) ((A ++ d :: B) ++ levels.flatten) := by
  subst hd
  exact @one_written tree [] leaves A B levels.flatten c _ h.tower.sound h.tower.stored
    h.tower.numbers hleaves rfl rfl hb

/-- What the levels above see of a change to the row of leaves. -/
theorem Arranged.pending (h : Arranged tree leaves levels) (hleaves : leaves = A ++ c :: B)
    (hpath : PathUp levels c.parentPageNumber path)
    (hwritten : Rewritten tree (leaves ++ levels.flatten) tree'
      ((A ++ (Z ++ B')) ++ levels.flatten))
    (hB : B'.map (·.up) = B.map (·.up)) (hZ : Z ≠ [])
    (hparent : ∀ z ∈ Z, z.parentPageNumber = c.parentPageNumber)
    (hasc : Ascending ((A ++ (Z ++ B')).map fenceCellForPage)) :
    Pending tree' 1 (A ++ (Z ++ B')) levels (A.map (·.up)) c.up (Z.map (·.up))
      (B.map (·.up)) c.parentPageNumber path := by
  have hnumbers := h.tower.numbers
  rw [pageNumbers_append] at hnumbers
  obtain ⟨hrow, hlevels, -⟩ := nodup_append'.mp hnumbers
  have hfences : B'.map fenceCellForPage = B.map fenceCellForPage := by
    rw [← map_up_fst, ← map_up_fst, hB]
  have habove := h.tower.above
  rw [← hwritten.setup.root, hleaves] at habove
  refine ⟨hwritten.sound, ?_, ?_, hwritten.stored, hwritten.numbers⟩
  · refine @stale_row _ _ _ _ _ _ _ _ [c] habove ?_ hlevels (hleaves ▸ hrow)
      hpath (cons_ne_nil _ _) (forall_mem_singleton.mpr rfl) hZ hparent ?_
    · exact fun q hq => hwritten.stored q (mem_append_right _ hq)
    · rw [map_append, map_append] at hasc ⊢
      rw [← hfences]
      exact hasc
  · rw [map_append, map_append, hB]

/-- The leaves after a change was carried to the root. -/
theorem Climbed.arranged {levels' : List Level} (h : Climbed tree 1 row levels tree' row' levels')
    (hfits : LeafFits levels.isEmpty row) :
    Arranged tree' row' levels' ∧ row'.flatMap liveCells = row.flatMap liveCells := by
  refine ⟨⟨h.tower, ?_⟩, liveCells_of_core h.core⟩
  rw [h.empty]
  exact hfits.of_core h.core

end Refilling

end ScratchBird.Btree
