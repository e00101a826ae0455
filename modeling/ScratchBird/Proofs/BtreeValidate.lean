import ScratchBird.Proofs.BtreeInsert

/-!
# The validator accepts an index in order

The traversal from the root meets the pages of an ordered index parents first,
finds every fence exact and every parent link right, and gathers the leaves from
left to right. What the validator then checks about the leaves is the row of
leaves itself: links, ranges, order and the absence of duplicates.
-/

namespace ScratchBird.Btree

open Lib List
open Storage (isTypedEngineIdentity)

variable {tree : IndexBtreePhysicalTree} {p page : IndexBtreePageBody}
  {content : ReachableContent} {height fuel : Nat} {row children leaves : Level}
  {numbers seen : List UInt64} {levels : List Level} {parent : UInt64} {pageSize : UInt32}

/-! ## The tree as a forest -/

/-- A stored page at a height: leaves at height zero. -/
structure PageAt (tree : IndexBtreePhysicalTree) (height : Nat)
    (p : IndexBtreePageBody) : Prop where
  stored : Stored tree p
  level : p.treeLevel.toNat = height
  internal : isInternalLike p = (height != 0)
  fences : height ≠ 0 → p.cells ≠ []

abbrev PageForest (tree : IndexBtreePhysicalTree) (height : Nat)
    (row leaves : Level) (numbers : List UInt64) : Prop :=
  Forest IndexBtreePageBody.down IndexBtreePageBody.up
    IndexBtreePageBody.pageNumber (PageAt tree) height row leaves numbers

theorem pageAt_head (h : PageForest tree height (p :: row) leaves numbers) :
    PageAt tree height p := by
  cases h with
  | leaf hat rest => exact hat
  | node hat hdown below rest => exact hat

/-- The levels of a tower, raised over the forest below them. -/
theorem Above.forest (h : Above tree.rootPageNumber (height + 1) (row.map (·.up)) levels)
    (hstored : ∀ p ∈ levels.flatten, Stored tree p)
    (hforest : PageForest tree height row leaves numbers) :
    ∃ root numbers', PageForest tree (height + levels.length) [root] leaves numbers' ∧
      root.pageNumber = tree.rootPageNumber ∧ root.parentPageNumber = 0 ∧
      numbers'.Perm (pageNumbers levels.flatten ++ numbers) := by
  induction levels generalizing height row numbers with
  | nil =>
    obtain ⟨root, rfl, hroot, hparent⟩ := h.singleton
    exact ⟨root, numbers, hforest, hroot, hparent, List.Perm.refl _⟩
  | cons upper levels ih =>
    obtain ⟨hlists, hfits, habove⟩ := h
    have hat : ∀ p ∈ upper, PageAt tree (height + 1) p := by
      intro p hp
      refine ⟨hstored p ?_, hfits.level p hp, ?_, fun _ => hfits.fences p hp⟩
      · rw [flatten_cons]
        exact mem_append_left _ hp
      · rw [isInternalLike_of_level hfits (Nat.succ_pos height) hp]
        rfl
    obtain ⟨numbers', hraised, hperm⟩ := hforest.raise hlists hat
    have hrest : ∀ p ∈ levels.flatten, Stored tree p := by
      intro p hp
      refine hstored p ?_
      exact mem_append_right _ hp
    obtain ⟨root, numbers'', htop, hroot, hparent, hperm'⟩ := ih habove hrest hraised
    refine ⟨root, numbers'', ?_, hroot, hparent, ?_⟩
    · rw [length_cons, Nat.add_comm levels.length 1, ← Nat.add_assoc]
      exact htop
    · rw [flatten_cons, pageNumbers_append]
      refine hperm'.trans ((hperm.append_left _).trans ?_)
      rw [append_assoc]
      exact List.perm_append_comm_assoc _ _ _

/-! ## The traversal -/

/-- What the traversal has gathered once a forest is behind it. -/
def ReachableContent.visited (content : ReachableContent) (pageSize : UInt32)
    (leaves : Level) (numbers : List UInt64) :
    ReachableContent :=
  { reachablePages := numbers.reverse ++ content.reachablePages
    leaves := content.leaves ++ leaves.map (·.settled pageSize)
    liveEntries := content.liveEntries ++ leaves.flatMap liveCells
    tombstoneCount := content.tombstoneCount +
      (leaves.map fun p => p.cells.countP (·.deleted)).sum }

theorem visited_nil : content.visited pageSize [] [] = content := by simp [ReachableContent.visited]

theorem visited_leaf :
    { content with
      reachablePages := p.pageNumber :: content.reachablePages }.withLeaf
        (p.settled pageSize) = content.visited pageSize [p] [p.pageNumber] := by
  rw [ReachableContent.visited]
  simp only [flatMap_cons, flatMap_nil, append_nil]
  rfl

theorem visited_cons {n : UInt64} :
    { content with
      reachablePages := n :: content.reachablePages }.visited pageSize leaves
        numbers = content.visited pageSize leaves (n :: numbers) := by
  rw [ReachableContent.visited, ReachableContent.visited]
  simp

/-- What a page lists of its children. -/
theorem cells_of_down (h : p.down = children.map (·.up)) :
    p.cells = children.map fenceCellForPage := by
  have hfst := congrArg (List.map Prod.fst) h
  rw [map_up_fst, IndexBtreePageBody.down, map_map] at hfst
  rw [← hfst]
  exact (map_id _).symm

theorem parents_of_down (h : p.down = children.map (·.up)) :
    ∀ q ∈ children, q.parentPageNumber = p.pageNumber := by
  intro q hq
  have hmem : q.up ∈ p.down := by
    rw [h]
    exact mem_map_of_mem hq
  exact holder_of_mem_down hmem

theorem isLeafLike_of_pageAt (h : PageAt tree height p) : isLeafLike p = (height == 0) := by
  rw [isLeafLike_eq h.stored.built.fits.kind, h.internal]
  cases height <;> rfl

/-- A page of the forest and the pages below it, none of them seen before. -/
structure Unseen (tree : IndexBtreePhysicalTree) (height : Nat) (row leaves : Level)
    (numbers : List UInt64) (parent : UInt64) (seen : List UInt64) : Prop where
  forest : PageForest tree height row leaves numbers
  parents : ∀ q ∈ row, q.parentPageNumber = parent
  nodup : numbers.Nodup
  new : ∀ n ∈ numbers, n ∉ seen

theorem Unseen.split (h : Unseen tree height (p :: row) leaves numbers parent seen) :
    ∃ L L' N N', leaves = L ++ L' ∧ numbers = N ++ N' ∧ Unseen tree height [p] L N parent seen ∧
      ∀ seen', (∀ n ∈ seen', n ∈ N ∨ n ∈ seen) → Unseen tree height row L' N' parent seen' := by
  obtain ⟨L, L', N, N', rfl, rfl, hp, hrow⟩ := Forest.split (A := [p]) (B := row) h.forest
  obtain ⟨hparent, hparents⟩ := forall_mem_cons.mp h.parents
  obtain ⟨hN, hN', hdisjoint⟩ := nodup_append'.mp h.nodup
  refine ⟨L, L', N, N', rfl, rfl, ⟨hp, forall_mem_singleton.mpr hparent, hN,
    fun n hn => h.new n (mem_append_left _ hn)⟩, ?_⟩
  intro seen' hseen
  refine ⟨hrow, hparents, hN', fun n hn hmem => ?_⟩
  rcases hseen n hmem with hn' | hn'
  · exact hdisjoint hn' hn
  · exact h.new n (mem_append_right _ hn) hn'

/-- The children of a page that has just been seen. -/
theorem Unseen.below (h : Unseen tree (height + 1) [p] leaves numbers parent seen) :
    PageAt tree (height + 1) p ∧ p.parentPageNumber = parent ∧
      p.pageNumber ∉ seen ∧ ∃ children numbers', numbers = p.pageNumber :: numbers' ∧
        p.cells = children.map fenceCellForPage ∧
        Unseen tree height children leaves numbers' p.pageNumber (p.pageNumber :: seen) := by
  obtain ⟨hforest, hparents, hnodup, hnew⟩ := h
  cases hforest with
  | @node _ _ _ children L _ N _ hat hdown below rest =>
    cases rest with
    | nil =>
      rw [append_nil] at hnodup hnew
      obtain ⟨hpn, hnew⟩ := forall_mem_cons.mp hnew
      obtain ⟨hnotin, hnodup⟩ := nodup_cons.mp hnodup
      refine ⟨hat, hparents p mem_cons_self, hpn, children, N, ?_, cells_of_down hdown, ?_⟩
      · rw [append_nil]
      · rw [append_nil]
        refine ⟨below, parents_of_down hdown, hnodup, fun n hn hmem => ?_⟩
        rcases mem_cons.mp hmem with rfl | hmem
        · exact hnotin hn
        · exact hnew n hn hmem

theorem Unseen.leaf (h : Unseen tree 0 [p] leaves numbers parent seen) :
    PageAt tree 0 p ∧ p.parentPageNumber = parent ∧ p.pageNumber ∉ seen ∧
      leaves = [p] ∧ numbers = [p.pageNumber] := by
  obtain ⟨hforest, hparents, -, hnew⟩ := h
  cases hforest with
  | leaf hat rest =>
    cases rest
    exact ⟨hat, hparents p mem_cons_self, hnew p.pageNumber mem_cons_self, rfl, rfl⟩

theorem validationFetch_stored (h : Stored tree p) :
    validationFetch tree p.pageNumber = .ok (p.settled tree.pageSize) := by
  rw [validationFetch, h.fetched]

/-- An exact fence passes the check of the page that holds it. -/
theorem checkFence_exact (h : PageAt tree height p) (hlevel : page.treeLevel.toNat = height + 1) :
    checkFence tree page (fenceCellForPage p) = .ok () := by
  have hne : (fenceCellForPage p).childPageNumber ≠ 0 := h.stored.built.fits.number
  have hsame : sameFenceCell (fenceCellForPage p)
      (fenceCellForPage (p.settled tree.pageSize)) = true := by
    have hself : compareIndexBtreeCellsUnchecked (fenceCellForPage p)
        (fenceCellForPage p) ≠ .lt := by
      rw [compareIndexBtreeCells_eq, ne_eq, compare_lt_iff_lt]
      exact lt_irrefl _
    show sameFenceCell (fenceCellForPage p) (fenceCellForPage p) = true
    rw [sameFenceCell]
    simp only [fence_deleted, bne_iff_ne, ne_eq, hself, not_false_eq_true,
      Bool.and_eq_true, beq_self_eq_true, Bool.not_false, and_true]
    rfl
  have hchild : (p.settled tree.pageSize).treeLevel.toNat + 1 =
      page.treeLevel.toNat := by
    rw [hlevel, ← h.level]
    rfl
  rw [checkFence, if_neg]
  · show (validationFetch tree p.pageNumber >>= _) = _
    rw [validationFetch_stored h.stored]
    show (if (p.settled tree.pageSize).treeLevel.toNat + 1 ≠ page.treeLevel.toNat then _ else _) = _
    rw [if_neg (by simp [hchild]), if_neg (by simp [hsame])]
  · rw [Bool.or_eq_true, not_or, beq_iff_eq]
    exact ⟨Bool.false_ne_true, hne⟩

/-- The checks on a page before its content is read. -/
theorem collectReachableContent_page (h : PageAt tree height p)
    (hnew : p.pageNumber ∉ content.reachablePages) :
    collectReachableContent tree (fuel + 1) p.parentPageNumber p.pageNumber content =
      if isLeafLike p then
        .ok ({ content with
          reachablePages := p.pageNumber :: content.reachablePages }.withLeaf
            (p.settled tree.pageSize))
      else
        visitFences tree (p.settled tree.pageSize)
          (collectReachableContent tree fuel p.pageNumber) p.cells
          { content with
            reachablePages := p.pageNumber :: content.reachablePages } := by
  have hindex : (p.settled tree.pageSize).indexUuid.value =
      tree.indexUuid.value := by
    rw [← h.stored.index]
    rfl
  have hparent : (p.settled tree.pageSize).parentPageNumber =
      p.parentPageNumber := rfl
  have hleaf : isLeafLike (p.settled tree.pageSize) = isLeafLike p := rfl
  have hinternal : isInternalLike (p.settled tree.pageSize) = isInternalLike p := rfl
  have hcontains : ¬content.reachablePages.contains p.pageNumber = true := by
    rw [List.contains_iff_mem]
    exact hnew
  rw [collectReachableContent, if_neg hcontains]
  simp only [validationFetch_stored h.stored, bind, Except.bind, hindex, hparent,
    ne_eq, not_true, if_false, hleaf, hinternal]
  split
  · rfl
  · next hnot =>
    have heq := isLeafLike_eq h.stored.built.fits.kind
    have hyes : isInternalLike p = true := by
      rw [heq] at hnot
      simpa using hnot
    rw [hyes]
    rfl

/-- The fences of a page, given what a visit of a child does. -/
theorem visitFences_unseen
    {visit : UInt64 → ReachableContent → Except DiagnosticRecord ReachableContent}
    (hvisit : ∀ {q L N content}, Unseen tree height [q] L N page.pageNumber
      content.reachablePages → visit q.pageNumber content = .ok (content.visited tree.pageSize L N))
    (hlevel : page.treeLevel.toNat = height + 1)
    (h : Unseen tree height row leaves numbers page.pageNumber content.reachablePages) :
    visitFences tree page visit (row.map fenceCellForPage) content =
      .ok (content.visited tree.pageSize leaves numbers) := by
  induction row generalizing leaves numbers content with
  | nil =>
    cases h.forest
    rw [visited_nil]
    rfl
  | cons q row ih =>
    obtain ⟨L, L', N, N', rfl, rfl, hq, hrow⟩ := h.split
    rw [map_cons, visitFences, checkFence_exact (pageAt_head hq.forest) hlevel]
    show (visit q.pageNumber content >>= _) = _
    rw [hvisit hq]
    show visitFences tree page visit (row.map fenceCellForPage) _ = _
    rw [ih (hrow _ fun n hn => ?_)]
    · simp [ReachableContent.visited, Nat.add_assoc]
    · simpa [ReachableContent.visited] using hn

/-- A page and everything below it. The induction is on the height; the fuel
exceeds it at every page. -/
theorem collectReachableContent_unseen
    (h : Unseen tree height [p] leaves numbers parent content.reachablePages)
    (hfuel : height < fuel) :
    collectReachableContent tree fuel parent p.pageNumber content =
      .ok (content.visited tree.pageSize leaves numbers) := by
  obtain ⟨fuel, rfl⟩ : ∃ f, fuel = f + 1 := ⟨fuel - 1, by omega⟩
  induction height generalizing p leaves numbers parent content fuel with
  | zero =>
    obtain ⟨hat, rfl, hpn, rfl, rfl⟩ := h.leaf
    rw [collectReachableContent_page hat hpn, isLeafLike_of_pageAt hat, if_pos (by decide),
      visited_leaf]
  | succ height ih =>
    obtain ⟨hat, rfl, hpn, children, N, rfl, hcells, hbelow⟩ := h.below
    rw [collectReachableContent_page hat hpn, isLeafLike_of_pageAt hat, hcells, ← visited_cons]
    obtain ⟨fuel, rfl⟩ : ∃ f, fuel = f + 1 := ⟨fuel - 1, by omega⟩
    exact @visitFences_unseen tree (p.settled tree.pageSize) _ height children leaves N _
      (fun hq => ih hq fuel (by omega)) hat.level hbelow

/-- A tower over leaves is a forest with one root, none of it seen at the start. -/
theorem Tower.unseen (h : Tower tree 1 leaves levels)
    (hleaf : ∀ p ∈ leaves, p.treeLevel = 0 ∧ isInternalLike p = false) :
    ∃ root numbers, Unseen tree levels.length [root] leaves numbers 0 [] ∧
      root.pageNumber = tree.rootPageNumber := by
  have hat : ∀ p ∈ leaves, PageAt tree 0 p := by
    intro p hp
    refine ⟨h.stored p (mem_append_left _ hp), ?_, ?_, fun hne => absurd rfl hne⟩
    · rw [(hleaf p hp).1]
      rfl
    · rw [(hleaf p hp).2]
      rfl
  obtain ⟨root, numbers, hforest, hroot, hparent, hperm⟩ :=
    h.above.forest (fun p hp => h.stored p (mem_append_right _ hp)) (forest_of_leaves hat)
  rw [Nat.zero_add] at hforest
  refine ⟨root, numbers, ⟨hforest, forall_mem_singleton.mpr hparent, ?_,
    fun _ _ => not_mem_nil⟩, hroot⟩
  have hnodup := h.numbers
  rw [pageNumbers_append] at hnodup
  rw [hperm.nodup_iff]
  exact List.nodup_append_comm.mp hnodup

/-! ## The checks on what was gathered -/

section Checks

variable {entries : List IndexBtreeCell}

theorem checkImages_iff {images : List IndexBtreePhysicalPageImage} :
    checkImages tree seen images = .ok () ↔ (images.map (·.pageNumber)).Nodup ∧
      (∀ image ∈ images, image.pageNumber ∉ seen) ∧ ∀ image ∈ images, ∃ parsed,
        parseIndexBtreePageBody image.serialized image.pageNumber = .ok parsed ∧
          parsed.body.indexUuid.value = tree.indexUuid.value := by
  induction images generalizing seen with
  | nil => simp [checkImages]
  | cons image images ih =>
    rw [checkImages, indexPageError, guard_eq_ok_iff, List.contains_iff_mem]
    cases hparsed : parseIndexBtreePageBody image.serialized image.pageNumber with
    | error d => simp [indexPageError, hparsed]
    | ok parsed =>
      simp only [indexPageError, guard_eq_ok_iff, not_not, ih, map_cons, nodup_cons, mem_map,
        mem_cons, not_or, not_exists, not_and]
      grind

theorem checkSiblings_iff {previous : UInt64} :
    checkSiblings previous row = .ok () ↔ PageLinks previous row 0 := by
  induction row generalizing previous with
  | nil => exact iff_of_true rfl trivial
  | cons p row ih =>
    rw [checkSiblings, indexPageError, guard_eq_ok_iff, not_or, not_not, not_not, ih, and_assoc]
    rfl

theorem firstLiveCell_mem {c : IndexBtreeCell}
    (h : firstLiveCell p = some c) : c ∈ liveCells p := by
  have hlive := List.find?_some h
  exact mem_filter.mpr ⟨List.mem_of_find?_eq_some h, hlive⟩

theorem checkLeafRanges_ok (h : Ascending (row.flatMap liveCells)) :
    checkLeafRanges row = .ok () := by
  induction row with
  | nil => rfl
  | cons p row ih =>
    cases row with
    | nil => rfl
    | cons q row =>
      obtain ⟨-, hrest, hcross⟩ := pairwise_append.mp h
      rw [checkLeafRanges, if_neg]
      · exact ih hrest
      · rw [Bool.not_eq_true, misplaced.eq_def]
        split
        · next a b ha hb =>
          have hlast : a ∈ liveCells p := by
            rw [lastLiveCell_eq] at ha
            exact mem_of_getLast? ha
          have hfirst : b ∈ (q :: row).flatMap liveCells :=
            mem_flatMap.mpr ⟨q, mem_cons_self, firstLiveCell_mem hb⟩
          have hlt := hcross a hlast b hfirst
          rw [compareIndexBtreeCells_eq, compare_lt_iff_lt.mpr hlt]
          rfl
        · rfl

theorem checkNeighbours_ok {bad : IndexBtreeCell → IndexBtreeCell → Bool}
    {code key : String} {i : Nat} (h : entries.Pairwise fun a b => bad a b = false) :
    checkNeighbours bad code key i entries = .ok () := by
  induction entries generalizing i with
  | nil => rfl
  | cons a entries ih =>
    cases entries with
    | nil => rfl
    | cons b entries =>
      obtain ⟨ha, hrest⟩ := pairwise_cons.mp h
      rw [checkNeighbours, ha b mem_cons_self]
      exact ih hrest

theorem locator_eq_of_sameLiveEntry {a b : IndexBtreeCell}
    (h : sameLiveEntry a b = true) : a.locator = b.locator := by
  rw [sameLiveEntry, Bool.and_eq_true, Bool.and_eq_true, beq_iff_eq, beq_iff_eq, beq_iff_eq] at h
  obtain ⟨⟨hkey, hrow⟩, hversion⟩ := h
  rw [IndexBtreeCell.locator, IndexBtreeCell.locator, hkey, hrow, hversion]

theorem checkGlobalOrder_ok (h : Ascending entries) : checkGlobalOrder entries = .ok () := by
  refine checkNeighbours_ok (h.imp ?_)
  intro a b hab
  rw [compareIndexBtreeCells_eq, compare_lt_iff_lt.mpr hab]
  rfl

theorem checkDuplicates_ok (h : Ascending entries) : checkDuplicates entries = .ok () := by
  rw [checkDuplicates, sortCells_of_ascending h]
  refine checkNeighbours_ok (h.imp ?_)
  intro a b hab
  rw [← Bool.not_eq_true]
  exact fun hsame => ne_of_lt hab (locator_eq_of_sameLiveEntry hsame)

/-- The traversal of a tower over leaves gathers the leaves. -/
theorem Tower.collectFromRoot_eq (h : Tower tree 1 leaves levels)
    (hleaf : ∀ p ∈ leaves, p.treeLevel = 0 ∧ isInternalLike p = false) :
    ∃ numbers, collectFromRoot tree =
      .ok (({} : ReachableContent).visited tree.pageSize leaves numbers) := by
  obtain ⟨root, numbers, hunseen, hroot⟩ := h.unseen hleaf
  have hle := h.levels_le
  refine ⟨numbers, ?_⟩
  rw [collectFromRoot, ← hroot]
  exact collectReachableContent_unseen hunseen (by omega)

section

variable (h : Arranged tree leaves levels)
include h

theorem Arranged.leaf_pages : ∀ p ∈ leaves, p.treeLevel = 0 ∧ isInternalLike p = false :=
  fun p hp => ⟨h.leaves.level p hp, h.leaves.not_internal hp⟩

theorem Arranged.unseen : ∃ root numbers, Unseen tree levels.length [root] leaves numbers 0 [] ∧
    root.pageNumber = tree.rootPageNumber := h.tower.unseen h.leaf_pages

theorem Arranged.root_ne_zero : tree.rootPageNumber ≠ 0 := by
  obtain ⟨root, numbers, hunseen, hroot⟩ := h.unseen
  rw [← hroot]
  exact (pageAt_head hunseen.forest).stored.built.fits.number

theorem Arranged.collectFromRoot_eq :
    ∃ numbers, collectFromRoot tree =
      .ok (({} : ReachableContent).visited tree.pageSize leaves numbers) :=
  h.tower.collectFromRoot_eq h.leaf_pages

theorem Arranged.collectRepairLiveEntries_eq :
    collectRepairLiveEntries tree = .ok (leaves.flatMap liveCells) := by
  obtain ⟨numbers, hcollect⟩ := h.collectFromRoot_eq
  rw [collectRepairLiveEntries, hcollect]
  rfl

/-- The validator accepts an ordered index. -/
theorem Arranged.validate : ∃ result, validateIndexBtreePhysicalTree tree = .ok result := by
  obtain ⟨numbers, hcollect⟩ := h.collectFromRoot_eq
  obtain ⟨p, hp⟩ : ∃ p, p ∈ leaves :=
    List.exists_mem_of_ne_nil _ fun hnil => h.tower.above.ne_nil.1 (by rw [hnil]; rfl)
  have hbuilt := (h.stored hp).built
  have hsize : tree.pageSize ≠ 0 := by
    intro hzero
    have hheader := hbuilt.header
    rw [hzero] at hheader
    cases hheader
  have hlinked : PageLinks 0 (leaves.map (·.settled tree.pageSize)) 0 := by
    refine (linked_congr ?_).mpr h.leaves.linked
    rw [map_map]
    rfl
  have hlive : (leaves.map (·.settled tree.pageSize)).flatMap liveCells =
      leaves.flatMap liveCells := by
    rw [List.flatMap_map]
    rfl
  have hranges : Ascending ((leaves.map (·.settled tree.pageSize)).flatMap liveCells) :=
    hlive ▸ h.leaves.ascending
  rw [validateIndexBtreePhysicalTree, if_neg (not_or.mpr ⟨h.root_ne_zero, hsize⟩),
    h.tower.sound.index,
      checkImages_iff.mpr ⟨h.tower.sound.distinct, fun _ _ => not_mem_nil, h.tower.sound.images⟩,
      hcollect]
  simp only [ReachableContent.visited, nil_append, ok_bind, checkSiblings_iff.mpr hlinked,
    checkLeafRanges_ok hranges, checkGlobalOrder_ok h.leaves.ascending,
    checkDuplicates_ok h.leaves.ascending]
  exact ⟨_, rfl⟩

end

end Checks

end ScratchBird.Btree
