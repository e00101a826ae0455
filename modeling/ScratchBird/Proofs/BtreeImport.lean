import ScratchBird.Proofs.BtreeScan

/-!
# Imported trees

An image is used as it is once the validator accepts it, and the validator asks
for less than insertions and deletions keep. It takes any fence that is not below
its child, so a fence may be above cells of the next child, and it does not look at
the next page number, which may be that of a page in use. A scan then skips a
leaf it should visit, and a split overwrites a page. The first happens exactly when
a fence is above a live cell below a later one (`FencesApart`). The second does not
happen to an image with exact fences whose next page number is new (`ExactImage`),
as every exported one is that was made by calls.
-/

namespace ScratchBird.Btree

open Lib

variable {image tree tree' : IndexBtreePhysicalTree} {leaves : Level} {levels : List Level}

theorem import_ok (h : importIndexBtreePhysicalTreeImage image = .ok tree) :
    tree = image ∧ tree.rootPageNumber ≠ 0 ∧
      ∃ result, validateIndexBtreePhysicalTree tree = .ok result := by
  rw [importIndexBtreePhysicalTreeImage, indexPageError, guard_eq_ok_iff, not_or, not_or] at h
  obtain ⟨⟨-, hroot, -⟩, h⟩ := h
  obtain ⟨result, hvalid, h⟩ := bind_eq_ok_iff.mp h
  cases h
  exact ⟨rfl, hroot, result, atStage_ok_iff.mp hvalid⟩

/-- The live entries of an accepted tree ascend. -/
theorem ascending_of_validate {result : IndexBtreePhysicalTreeValidationResult}
    (h : validateIndexBtreePhysicalTree tree = .ok result) :
    ∃ content, collectFromRoot tree = .ok content ∧ PageLinks 0 content.leaves 0 ∧
      Ascending content.liveEntries := by
  obtain ⟨-, content, hcollect, hsiblings, horder, hduplicates⟩ := validate_ok h
  refine ⟨content, hcollect, checkSiblings_iff.mp hsiblings, ?_⟩
  have hsorted : content.liveEntries.IsChain fun a b => a.locator ≤ b.locator :=
    (checkNeighbours_chain horder).imp fun a b hab => by
      simpa [compareIndexBtreeCells_eq, compare_gt_iff_gt] using hab
  rw [← sortCells_of_ordered (List.isChain_iff_pairwise.mp hsorted)]
  refine ascending_of_checkDuplicates ?_ hduplicates
  rw [(collect_extends hcollect).entries]
  exact leavesBelow_keys

/-! ## Scans -/

/-- Every scan answers what the ordered scan answers and the request includes,
exactly when no fence of the image is above a live cell below a later one. -/
theorem imported_scan_filters_iff (himport : importIndexBtreePhysicalTreeImage image = .ok tree) :
    (∀ request, validateScanRequest request = .ok () → request.limit = 0 →
      ∃ all result, scanIndexBtreePhysicalTree tree {} = .ok all ∧
        scanIndexBtreePhysicalTree tree request = .ok result ∧
        result.locators.map (·.entry) = request.arrange ((all.locators.map (·.entry)).filter
          fun e => scanRequestIncludesCell request { encodedKey := e.encodedKey })) ↔
      FencesApart tree (tree.pages.length + 1) tree.rootPageNumber := by
  obtain ⟨rfl, hroot, _, hvalid⟩ := import_ok himport
  obtain ⟨content, hcollect, -, hasc⟩ := ascending_of_validate hvalid
  obtain ⟨all, hall, hentries⟩ := full_scan hroot hcollect hasc
  constructor
  · intro hscans
    have hlive : content.liveEntries = _ := (collect_extends hcollect).entries
    have hinj : (content.liveEntries.map (·.locator)).Nodup :=
      List.pairwise_map.mpr (hasc.imp ne_of_lt)
    rw [List.nil_append] at hlive
    refine fencesApart_of_found (hlive ▸ hinj.of_map) fun c hc => ?_
    have hvalid := pointRequest_valid (leavesBelow_keys c hc)
    obtain ⟨all', result, hall', hresult, hfilter⟩ := hscans _ hvalid rfl
    obtain ⟨result', hresult', hscanned⟩ := scan_scanned hroot hcollect hasc hvalid
    cases hall.symm.trans hall'
    cases hresult.symm.trans hresult'
    -- The cell is asked for by its key, so its entry is in the answer of a leaf that was visited.
    have hmem : c.entry ∈ result.locators.map (·.entry) := by
      rw [hfilter, hentries]
      refine List.mem_filter.mpr ⟨List.mem_map_of_mem (hlive ▸ hc), ?_⟩
      have hself : compareEncodedKeysOnly c.encodedKey c.encodedKey = .eq :=
        (compareKeys_eq_iff (leavesBelow_keys c hc) (leavesBelow_keys c hc)).mpr rfl
      exact beq_iff_eq.mpr hself
    rw [hscanned] at hmem
    obtain ⟨c', hc', hentry⟩ := List.mem_map.mp hmem
    have hc' := (List.mem_filter.mp hc').1
    have hsame : c'.locator = c.locator := congrArg BtreeEntry.locator hentry
    rw [hlive] at hinj
    have hvisited := (scannedLeaves_sublist.flatMap _).subset hc'
    rwa [List.inj_on_of_nodup_map hinj hvisited hc hsame] at hc'
  · intro hapart request hvalid hlimit
    obtain ⟨result, hresult, hanswer⟩ := scan_asked hroot hcollect hasc hvalid hapart
    refine ⟨all, result, hall, hresult, ?_⟩
    rw [hanswer, hentries, List.filter_map, IndexBtreePhysicalScanRequest.truncate, if_pos hlimit]
    rfl

/-- They make two leaves, `[1]` and `[2, 3]`. -/
def threeInserts : List BtreeOperation :=
  [.insert (sampleCell [1] 1), .insert (sampleCell [2] 2), .insert (sampleCell [3] 3)]

/-- The root over those leaves, with another fence for the first. -/
def rootWithFence (key : Index.Bytes) : IndexBtreePageBody :=
  { indexUuid := sampleIndex, pageNumber := 1, treeLevel := 1, pageKind := .root
    cells := [{ sampleCell key 1 with highKey := true, childPageNumber := 2 },
      { sampleCell [3] 3 with highKey := true, childPageNumber := 3 }] }

/-- A fence above the first leaf and below the second. -/
theorem looseFence_scan_filters :
    ∃ made, runFrom sampleIndex 384 threeInserts = .ok made ∧
      ∃ tree, importIndexBtreePhysicalTreeImage (store made (rootWithFence [1, 5])) = .ok tree ∧
        ∃ result, scanIndexBtreePhysicalTree tree
            (pointRequest (sampleCell [2] 2).encodedKey) = .ok result ∧
          result.locators.map (·.entry) = [(sampleCell [2] 2).entry] := by
  obtain ⟨made, hrun, tree, himport, hapart, all, hall, hentries⟩ :
      ∃ made, runFrom sampleIndex 384 threeInserts = .ok made ∧
        ∃ tree, importIndexBtreePhysicalTreeImage (store made (rootWithFence [1, 5])) = .ok tree ∧
          FencesApart tree (tree.pages.length + 1) tree.rootPageNumber ∧
          ∃ all, scanIndexBtreePhysicalTree tree {} = .ok all ∧ all.locators.map (·.entry) =
            [(sampleCell [1] 1).entry, (sampleCell [2] 2).entry, (sampleCell [3] 3).entry] := by
    decide +kernel
  obtain ⟨all', result, hall', hresult, hfilter⟩ :=
    (imported_scan_filters_iff himport).mpr hapart (pointRequest (sampleCell [2] 2).encodedKey) rfl
      rfl
  cases hall.symm.trans hall'
  rw [hentries] at hfilter
  exact ⟨made, hrun, tree, himport, result, hresult, hfilter⟩

/-- A fence between the cells of the second leaf. The point scan for the first of
them ends at the fence. -/
theorem imported_scan_prunes_live_entry :
    ∃ made, runFrom sampleIndex 384 threeInserts = .ok made ∧
      ∃ tree, importIndexBtreePhysicalTreeImage (store made (rootWithFence [2, 1])) = .ok tree ∧
        (∃ all, scanIndexBtreePhysicalTree tree {} = .ok all ∧
          (sampleCell [2] 2).encodedKey ∈ all.locators.map (·.encodedKey)) ∧
        ∃ result, scanIndexBtreePhysicalTree tree
            { mode := .point, pointKey := (sampleCell [2] 2).encodedKey } = .ok result ∧
          result.locators = [] := by
  decide +kernel

/-! ## Insertions -/

/-- What insertions go by and the validator does not look at: the next page number
is above the numbers in use, and the pages form levels in which every fence is the
last live cell of its child. No page but a root is empty, and a root that is not a
leaf has two fences. -/
structure ExactImage (image : IndexBtreePhysicalTree) (leaves : Level) (levels : List Level) :
    Prop where
  next : ∀ page ∈ image.pages, Allocated image page.pageNumber
  fences : Above image.rootPageNumber 1 (leaves.map (·.up)) levels
  stored : ∀ p ∈ leaves ++ levels.flatten, Stored image p
  numbers : (pageNumbers (leaves ++ levels.flatten)).Nodup
  level : ∀ p ∈ leaves, p.treeLevel = 0
  kind : ∀ p ∈ leaves, p.pageKind = if levels.isEmpty then .root else .leaf
  filled : levels.isEmpty = false → ∀ p ∈ leaves, liveCells p ≠ []

/-- The validator sees to the rest: the images, the links of the leaves and the order
of the cells. -/
theorem ExactImage.arranged {result : IndexBtreePhysicalTreeValidationResult}
    (h : ExactImage image leaves levels)
    (hvalid : validateIndexBtreePhysicalTree image = .ok result) :
    Arranged image leaves levels := by
  obtain ⟨⟨hindex, himages⟩, -⟩ := validate_ok hvalid
  obtain ⟨hdistinct, -, hparsed⟩ := checkImages_iff.mp himages
  have htower : Tower image 1 leaves levels :=
    ⟨⟨hindex, hdistinct, hparsed, h.next⟩, h.fences, h.stored, h.numbers⟩
  have hleaf : ∀ p ∈ leaves, p.treeLevel = 0 ∧ isInternalLike p = false := by
    intro p hp
    refine ⟨h.level p hp, ?_⟩
    rw [isInternalLike, h.kind p hp, h.level p hp]
    cases levels.isEmpty <;> rfl
  obtain ⟨content, hcollect, hlinked, hascending⟩ := ascending_of_validate hvalid
  obtain ⟨numbers, hvisited⟩ := htower.collectFromRoot_eq hleaf
  cases hcollect.symm.trans hvisited
  refine ⟨htower, h.level, h.kind, ?_, h.filled, hascending⟩
  refine (linked_congr ?_).mp hlinked
  simp only [ReachableContent.visited, List.nil_append, List.map_map]
  rfl

end ScratchBird.Btree
