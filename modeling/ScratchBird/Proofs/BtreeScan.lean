import Mathlib.Data.Multiset.Filter
import ScratchBird.Proofs.BtreeRun

/-!
# A scan finds exactly what it asks for

A scan passes over the subtrees whose fence lies before the request and stops
behind the first fence that lies after it. In an ordered index the cells below a
fence are not above it and the cells of the following subtrees are above it, so
neither loses a cell that the request asks for. The collected locators come in
the order of the index, and sorting them changes nothing.
-/

namespace ScratchBird.Btree

open Lib List
open Index (Bytes)

variable {tree : IndexBtreePhysicalTree} {height fuel : Nat} {row leaves : Level}
  {levels : List Level} {numbers seen N' : List UInt64} {p page leaf : IndexBtreePageBody}
  {request : IndexBtreePhysicalScanRequest} {bound : IndexBtreePhysicalScanBound}
  {cell : IndexBtreeCell} {key start : Bytes} {detail : String} {parent : UInt64}
  {locators : List IndexBtreePhysicalRowLocator}

/-! ## What a request asks for -/

/-- The keys a lower bound lets in. -/
def IndexBtreePhysicalScanBound.LowerAdmits (bound : IndexBtreePhysicalScanBound)
    (key : Bytes) : Prop :=
  bound.unbounded = true ∨ orderedKey bound.encodedKey < orderedKey key ∨
    bound.inclusive = true ∧ key = bound.encodedKey

/-- The keys an upper bound lets in. -/
def IndexBtreePhysicalScanBound.UpperAdmits (bound : IndexBtreePhysicalScanBound)
    (key : Bytes) : Prop :=
  bound.unbounded = true ∨ orderedKey key < orderedKey bound.encodedKey ∨
    bound.inclusive = true ∧ key = bound.encodedKey

/-- The keys a request asks for. -/
def IndexBtreePhysicalScanRequest.Asks (request : IndexBtreePhysicalScanRequest)
    (key : Bytes) : Prop :=
  match request.mode with
  | .point => key = request.pointKey
  | .prefixed => request.scanPrefix <+: key
  | .range | .ordered => request.lowerBound.LowerAdmits key ∧ request.upperBound.UpperAdmits key

section Requests

variable {fence : IndexBtreeCell}

theorem validateScanKeyBytes_ok (h : validateScanKeyBytes key detail = .ok ()) :
    isOrderPreservingEncodedKey key = true := by
  rw [validateScanKeyBytes] at h
  split at h
  · next hkey => exact validateEncodedKey_ok_iff.mp hkey
  · cases h

theorem validateScanPrefixBytes_ok (h : validateScanPrefixBytes key detail = .ok ()) :
    isOrderPreservingEncodedKey key = true := by
  rw [validateScanPrefixBytes, indexPageError, indexPageError, indexPageError,
    guard_eq_ok_iff, guard_eq_ok_iff, guard_eq_ok_iff] at h
  simpa using h.2.2.1

theorem validateScanBound_ok (h : validateScanBound bound detail = .ok ())
    (hbounded : bound.unbounded = false) : isOrderPreservingEncodedKey bound.encodedKey = true := by
  rw [validateScanBound, hbounded] at h
  exact validateScanKeyBytes_ok h

/-- The order of keys that have passed the check. -/
theorem compareKeys_eq_iff (hk : isOrderPreservingEncodedKey key = true)
    (hc : isOrderPreservingEncodedKey cell.encodedKey = true) :
    compareEncodedKeysOnly cell.encodedKey key = .eq ↔ cell.encodedKey = key := by
  rw [compareEncodedKeysOnly_eq, compare_eq_iff_eq]
  exact ⟨orderedKey_inj hc hk, fun h => h ▸ rfl⟩

section

variable (hb : bound.unbounded = false → isOrderPreservingEncodedKey bound.encodedKey = true)
  (hc : isOrderPreservingEncodedKey cell.encodedKey = true)
include hb hc

theorem scanBoundAllowsLower_iff :
    scanBoundAllowsLower bound cell = true ↔ bound.LowerAdmits cell.encodedKey := by
  rw [scanBoundAllowsLower, IndexBtreePhysicalScanBound.LowerAdmits]
  cases hunbounded : bound.unbounded with
  | true => simp
  | false =>
    rw [Bool.false_or, Bool.or_eq_true, Bool.and_eq_true, beq_iff_eq, beq_iff_eq,
      compareKeys_eq_iff (hb hunbounded) hc, compareEncodedKeysOnly_eq,
      compare_gt_iff_gt, and_comm (a := cell.encodedKey = _)]
    simp

theorem scanBoundAllowsUpper_iff :
    scanBoundAllowsUpper bound cell = true ↔ bound.UpperAdmits cell.encodedKey := by
  rw [scanBoundAllowsUpper, IndexBtreePhysicalScanBound.UpperAdmits]
  cases hunbounded : bound.unbounded with
  | true => simp
  | false =>
    rw [Bool.false_or, Bool.or_eq_true, Bool.and_eq_true, beq_iff_eq, beq_iff_eq,
      compareKeys_eq_iff (hb hunbounded) hc, compareEncodedKeysOnly_eq,
      compare_lt_iff_lt, and_comm (a := cell.encodedKey = _)]
    simp

end

/-- A cell is included when its key is asked for. -/
theorem scanRequestIncludesCell_iff (hvalid : validateScanRequest request = .ok ())
    (hc : isOrderPreservingEncodedKey cell.encodedKey = true) :
    scanRequestIncludesCell request cell = true ↔ request.Asks cell.encodedKey := by
  rw [validateScanRequest] at hvalid
  rw [scanRequestIncludesCell, IndexBtreePhysicalScanRequest.Asks]
  cases hmode : request.mode <;>
    simp only [hmode, beq_iff_eq, Bool.and_eq_true] at hvalid ⊢
  case point => exact compareKeys_eq_iff (validateScanKeyBytes_ok hvalid) hc
  case prefixed => rw [encodedKeyStartsWith, isPrefixOf_iff_prefix]
  case range | ordered =>
    obtain ⟨_, hlower, hvalid⟩ := bind_eq_ok_iff.mp hvalid
    obtain ⟨_, hupper, -⟩ := bind_eq_ok_iff.mp hvalid
    rw [scanBoundAllowsLower_iff (validateScanBound_ok hlower) hc,
      scanBoundAllowsUpper_iff (validateScanBound_ok hupper) hc]

/-! ## Pruning by fences -/

/-- A bound that leaves out the fence leaves out what lies before it. -/
theorem not_admitted {α : Type} [LinearOrder α] {fence limit k : α}
    {inclusive : Bool} (h : fence < limit ∨ fence = limit ∧ inclusive = false)
    (hle : k ≤ fence) : ¬(limit < k ∨ k = limit ∧ inclusive = true) := by
  rintro (hgt | ⟨rfl, hinclusive⟩)
  · rcases h with hlt | ⟨rfl, -⟩
    · exact absurd (hle.trans_lt hlt) (not_lt.mpr hgt.le)
    · exact absurd hle (not_le.mpr hgt)
  · rcases h with hlt | ⟨-, hexclusive⟩
    · exact absurd hle (not_le.mpr hlt)
    · exact absurd hinclusive (by simp [hexclusive])

theorem not_lowerAdmits_of_below (h : fenceHighKeyBelowLowerBound bound fence = true)
    (hle : orderedKey key ≤ orderedKey fence.encodedKey) : ¬bound.LowerAdmits key := by
  simp only [fenceHighKeyBelowLowerBound, compareEncodedKeysOnly_eq, Bool.and_eq_true,
    Bool.or_eq_true, Bool.not_eq_true', beq_iff_eq, compare_lt_iff_lt, compare_eq_iff_eq] at h
  rintro (hunbounded | hadmits)
  · exact absurd hunbounded (by simp [h.1])
  · exact not_admitted h.2 hle (hadmits.imp_right fun hat => ⟨congrArg _ hat.2, hat.1⟩)

theorem not_upperAdmits_of_ends (h : fenceHighKeyEndsAfterUpperBound bound fence = true)
    (hle : orderedKey fence.encodedKey ≤ orderedKey key) : ¬bound.UpperAdmits key := by
  simp only [fenceHighKeyEndsAfterUpperBound, compareEncodedKeysOnly_eq, Bool.and_eq_true,
    Bool.or_eq_true, Bool.not_eq_true', beq_iff_eq, compare_gt_iff_gt, compare_eq_iff_eq] at h
  rintro (hunbounded | hadmits)
  · exact absurd hunbounded (by simp [h.1])
  · exact not_admitted (α := OrderedKeyᵒᵈ) h.2 hle
      (hadmits.imp_right fun hat => ⟨congrArg _ hat.2, hat.1⟩)

/-- Behind the envelope, a prefix of a key is a prefix of its bytes. -/
theorem orderedKey_prefix_iff (hs : isOrderPreservingEncodedKey start = true)
    (hk : isOrderPreservingEncodedKey key = true) :
    (orderedKey start).bytes <+: (orderedKey key).bytes ↔ start <+: key := by
  obtain ⟨s, rfl⟩ := isOrderPreservingEncodedKey_iff.mp hs
  obtain ⟨k, rfl⟩ := isOrderPreservingEncodedKey_iff.mp hk
  rw [orderedKey, orderedKey, drop_left, drop_left, prefix_append_right_inj]

theorem orderedKey_le_iff {k l : OrderedKey} : k ≤ l ↔ compare k.bytes l.bytes ≠ .gt := by
  rw [← not_lt, ← compare_gt_iff_gt]
  rfl

section

variable (hs : isOrderPreservingEncodedKey start = true)
  (hc : isOrderPreservingEncodedKey cell.encodedKey = true)
include hs hc

/-- No key that begins with the prefix lies below a fence before it. -/
theorem not_startsWith_of_below (h : compareFenceKeyToPrefix fence start = .lt)
    (hle : orderedKey cell.encodedKey ≤ orderedKey fence.encodedKey) :
    ¬start <+: cell.encodedKey := by
  rw [compareFenceKeyToPrefix] at h
  split at h
  · cases h
  · rw [compareEncodedKeysOnly_eq, compare_lt_iff_lt] at h
    intro hprefix
    obtain ⟨t, ht⟩ := (orderedKey_prefix_iff hs hc).mpr hprefix
    refine absurd (hle.trans_lt h) (not_lt.mpr (orderedKey_le_iff.mpr ?_))
    rw [← ht]
    exact compare_append_ne_gt

/-- No key that begins with the prefix lies at or above a fence behind it. -/
theorem not_startsWith_of_ends (hf : isOrderPreservingEncodedKey fence.encodedKey = true)
    (h : compareFenceKeyToPrefix fence start = .gt)
    (hle : orderedKey fence.encodedKey ≤ orderedKey cell.encodedKey) :
    ¬start <+: cell.encodedKey := by
  rw [compareFenceKeyToPrefix] at h
  split at h
  · cases h
  · next hnot =>
    rw [compareEncodedKeysOnly_eq, compare_gt_iff_gt] at h
    intro hprefix
    obtain ⟨t, ht⟩ := (orderedKey_prefix_iff hs hc).mpr hprefix
    refine hnot ?_
    rw [encodedKeyStartsWith, isPrefixOf_iff_prefix, ← orderedKey_prefix_iff hs hf]
    refine prefix_of_between (orderedKey_le_iff.mp (le_of_lt h)) (t := t) ?_
    rw [ht]
    exact orderedKey_le_iff.mp hle

end

section

variable (hvalid : validateScanRequest request = .ok ())
  (hc : isOrderPreservingEncodedKey cell.encodedKey = true)
include hvalid hc

/-- A subtree whose fence lies before the request has nothing it asks for. -/
theorem not_includes_of_below (h : fenceHighKeyBelowScanRequest request fence = true)
    (hle : orderedKey cell.encodedKey ≤ orderedKey fence.encodedKey) :
    scanRequestIncludesCell request cell = false := by
  rw [← Bool.not_eq_true, scanRequestIncludesCell_iff hvalid hc, IndexBtreePhysicalScanRequest.Asks]
  rw [validateScanRequest] at hvalid
  rw [fenceHighKeyBelowScanRequest] at h
  cases hmode : request.mode <;> simp only [hmode, beq_iff_eq, Bool.false_eq_true] at hvalid h ⊢
  case point =>
    rw [compareEncodedKeysOnly_eq, compare_lt_iff_lt] at h
    exact fun heq => absurd (heq ▸ hle) (not_le.mpr h)
  case range => exact fun hasks => not_lowerAdmits_of_below h hle hasks.1
  case prefixed => exact not_startsWith_of_below (validateScanPrefixBytes_ok hvalid) hc h hle

/-- Behind a fence that ends the request there is nothing it asks for. -/
theorem not_includes_of_ends (hf : isOrderPreservingEncodedKey fence.encodedKey = true)
    (h : fenceHighKeyEndsScanRequest request fence = true)
    (hle : orderedKey fence.encodedKey ≤ orderedKey cell.encodedKey) :
    scanRequestIncludesCell request cell = false := by
  rw [← Bool.not_eq_true, scanRequestIncludesCell_iff hvalid hc, IndexBtreePhysicalScanRequest.Asks]
  rw [validateScanRequest] at hvalid
  rw [fenceHighKeyEndsScanRequest] at h
  cases hmode : request.mode <;> simp only [hmode, beq_iff_eq, Bool.false_eq_true] at hvalid h ⊢
  case point =>
    rw [compareEncodedKeysOnly_eq, compare_gt_iff_gt] at h
    exact fun heq => absurd (heq ▸ hle) (not_le.mpr h)
  case range => exact fun hasks => not_upperAdmits_of_ends h hle hasks.2
  case prefixed => exact not_startsWith_of_ends (validateScanPrefixBytes_ok hvalid) hc hf h hle

end

end Requests

/-! ## The leaves below a page -/

section Traversal

variable {content content' : ReachableContent} {fence c : IndexBtreeCell}
  {fences rest : List IndexBtreeCell} {n m : UInt64} {state : ScanState}
  {below scanned : UInt64 → Level}
  {visit : UInt64 → ReachableContent → Except DiagnosticRecord ReachableContent}

/-- The leaves below a page, from left to right. -/
def leavesBelow (tree : IndexBtreePhysicalTree) : Nat → UInt64 → Level
  | 0, _ => []
  | fuel + 1, n =>
    match fetchIndexBtreePhysicalPage tree n with
    | .error _ => []
    | .ok page =>
      if isLeafLike page then [page]
      else page.cells.flatMap fun fence => leavesBelow tree fuel fence.childPageNumber

/-- A page on which no traversal stops. -/
structure Readable (tree : IndexBtreePhysicalTree) (parent n : UInt64)
    (page : IndexBtreePageBody) : Prop where
  fetched : fetchIndexBtreePhysicalPage tree n = .ok page
  index : page.indexUuid.value = tree.indexUuid.value
  parent : page.parentPageNumber = parent

theorem fetch_fits (h : fetchIndexBtreePhysicalPage tree n = .ok page) : PageFits page := by
  rw [fetchIndexBtreePhysicalPage] at h
  split at h
  · cases h
  · obtain ⟨r, hparsed, rfl⟩ := map_eq_ok_iff.mp h
    rw [parseIndexBtreePageBody] at hparsed
    obtain ⟨-, -, hparsed⟩ := bind_eq_ok_iff.mp hparsed
    obtain ⟨header, -, hparsed⟩ := bind_eq_ok_iff.mp hparsed
    obtain ⟨⟨cells, last⟩, -, hparsed⟩ := bind_eq_ok_iff.mp hparsed
    rw [indexPageError, guard_eq_ok_iff] at hparsed
    obtain ⟨⟨⟩, hvalid, hr⟩ := bind_eq_ok_iff.mp hparsed.2
    cases hr
    exact validatePhysicalPageBody_ok_iff.mp hvalid

theorem validationFetch_ok (h : validationFetch tree n = .ok page) :
    fetchIndexBtreePhysicalPage tree n = .ok page := by
  rw [validationFetch] at h
  split at h
  · next hfetch => rw [hfetch, h]
  · cases h

/-- What the traversal of the validator has seen of a page it accepts. -/
theorem collect_page (h : collectReachableContent tree (fuel + 1) parent n content = .ok content') :
    n ∉ content.reachablePages ∧ ∃ page, Readable tree parent n page ∧
      (if isLeafLike page then
        .ok ({ content with reachablePages := n :: content.reachablePages }.withLeaf page)
      else
        visitFences tree page (collectReachableContent tree fuel page.pageNumber) page.cells
          { content with reachablePages := n :: content.reachablePages }) = .ok content' := by
  rw [collectReachableContent, indexPageError, guard_eq_ok_iff] at h
  obtain ⟨hnew, h⟩ := h
  obtain ⟨page, hfetch, h⟩ := bind_eq_ok_iff.mp h
  rw [indexPageError, indexPageError, guard_eq_ok_iff, guard_eq_ok_iff] at h
  obtain ⟨hindex, hparent, h⟩ := h
  refine ⟨by simpa using hnew, page,
    ⟨validationFetch_ok hfetch, not_not.mp hindex, not_not.mp hparent⟩, ?_⟩
  by_cases hleaf : isLeafLike page = true
  · rwa [if_pos hleaf] at h ⊢
  · rw [if_neg hleaf, indexPageError, guard_eq_ok_iff] at h
    rw [if_neg hleaf]
    exact h.2

/-- A fence the validator accepts: it leads to a page and is not below it. -/
structure Fenced (tree : IndexBtreePhysicalTree) (fence : IndexBtreeCell) : Prop where
  leads : (!fence.highKey || fence.childPageNumber == 0) = false
  live : fence.deleted = false
  bound : ∀ child, fetchIndexBtreePhysicalPage tree fence.childPageNumber = .ok child →
    (fenceCellForPage child).locator ≤ fence.locator

theorem checkFence_ok (h : checkFence tree page fence = .ok ()) : Fenced tree fence := by
  rw [checkFence, indexPageError, guard_eq_ok_iff] at h
  obtain ⟨hleads, h⟩ := h
  obtain ⟨child, hfetch, h⟩ := bind_eq_ok_iff.mp h
  rw [indexPageError, indexPageError, guard_eq_ok_iff, guard_eq_ok_iff] at h
  obtain ⟨-, hsame, -⟩ := h
  rw [Bool.not_eq_true, Bool.not_eq_false', sameFenceCell, Bool.and_eq_true, Bool.and_eq_true,
    Bool.and_eq_true, Bool.not_eq_true', bne_iff_ne, compareIndexBtreeCells_eq, ne_eq,
    compare_lt_iff_lt, not_lt] at hsame
  obtain ⟨⟨⟨-, hlive⟩, -⟩, hbound⟩ := hsame
  refine ⟨by simpa using hleads, hlive, fun child' hchild => ?_⟩
  rw [validationFetch_ok hfetch] at hchild
  cases hchild
  exact hbound

/-- Every fence of an accepted page was checked and its child visited. -/
theorem visitFences_mem (h : visitFences tree page visit fences content = .ok content')
    (hf : fence ∈ fences) :
    Fenced tree fence ∧ ∃ before after, visit fence.childPageNumber before = .ok after := by
  induction fences generalizing content with
  | nil => cases hf
  | cons first fences ih =>
    obtain ⟨⟨⟩, hcheck, h⟩ := bind_eq_ok_iff.mp h
    obtain ⟨between, hvisit, h⟩ := bind_eq_ok_iff.mp h
    rcases mem_cons.mp hf with rfl | hf
    · exact ⟨checkFence_ok hcheck, content, between, hvisit⟩
    · exact ih h hf

/-- What a traversal adds to what it has gathered. -/
structure Extends (content content' : ReachableContent) (leaves : Level) : Prop where
  gathered : content'.leaves = content.leaves ++ leaves
  entries : content'.liveEntries = content.liveEntries ++ leaves.flatMap liveCells
  pages : content.reachablePages ⊆ content'.reachablePages

theorem visitFences_extends (h : visitFences tree page visit fences content = .ok content')
    (hext : ∀ m content content', visit m content = .ok content' →
      Extends content content' (below m)) :
    Extends content content' (fences.flatMap fun fence => below fence.childPageNumber) := by
  induction fences generalizing content with
  | nil =>
    cases h
    exact ⟨(append_nil _).symm, (append_nil _).symm, fun _ hn => hn⟩
  | cons fence fences ih =>
    obtain ⟨⟨⟩, -, h⟩ := bind_eq_ok_iff.mp h
    obtain ⟨between, hfirst, h⟩ := bind_eq_ok_iff.mp h
    have hfirst := hext _ _ _ hfirst
    have hrest := ih h
    refine ⟨?_, ?_, fun n hn => hrest.pages (hfirst.pages hn)⟩
    · rw [hrest.gathered, hfirst.gathered, flatMap_cons, append_assoc]
    · rw [hrest.entries, hfirst.entries, flatMap_cons, flatMap_append, append_assoc]

theorem collect_extends (h : collectReachableContent tree fuel parent n content = .ok content') :
    Extends content content' (leavesBelow tree fuel n) := by
  induction fuel generalizing parent n content content' with
  | zero => cases h
  | succ fuel ih =>
    obtain ⟨-, page, hread, h⟩ := collect_page h
    rw [leavesBelow, hread.fetched]
    dsimp only
    split at h
    · next hleaf =>
      cases h
      rw [if_pos hleaf]
      refine ⟨rfl, ?_, fun m hm => mem_cons_of_mem n hm⟩
      rw [flatMap_singleton]
      rfl
    · next hleaf =>
      rw [if_neg hleaf]
      have hext := visitFences_extends h fun _ _ _ => ih
      exact ⟨hext.gathered, hext.entries, fun m hm => hext.pages (mem_cons_of_mem n hm)⟩

theorem leavesBelow_fits (h : leaf ∈ leavesBelow tree fuel n) :
    PageFits leaf ∧ isLeafLike leaf = true := by
  induction fuel generalizing n with
  | zero => cases h
  | succ fuel ih =>
    rw [leavesBelow] at h
    split at h
    · cases h
    · next page hpage =>
      split at h
      · next hleaf =>
        cases List.mem_singleton.mp h
        exact ⟨fetch_fits hpage, hleaf⟩
      · obtain ⟨fence, -, h⟩ := mem_flatMap.mp h
        exact ih h

theorem leavesBelow_keys : ∀ c ∈ (leavesBelow tree fuel n).flatMap liveCells,
    isOrderPreservingEncodedKey c.encodedKey = true := by
  intro c hc
  obtain ⟨leaf, hleaf, hc⟩ := mem_flatMap.mp hc
  exact ((leavesBelow_fits hleaf).1.cells c (mem_filter.mp hc).1).key

/-- No cell below an accepted fence is above it. -/
theorem locator_le_of_fenced (hfenced : Fenced tree fence)
    (h : collectReachableContent tree fuel parent fence.childPageNumber content = .ok content')
    (hc : c ∈ (leavesBelow tree fuel fence.childPageNumber).flatMap liveCells) :
    c.locator ≤ fence.locator := by
  induction fuel generalizing fence parent content content' with
  | zero => cases hc
  | succ fuel ih =>
    obtain ⟨-, page, hread, h⟩ := collect_page h
    have hordered : (liveCells page).Pairwise fun a b => a.locator ≤ b.locator :=
      (fetch_fits hread.fetched).ordered.filter _
    refine le_trans ?_ (hfenced.bound page hread.fetched)
    rw [leavesBelow, hread.fetched] at hc
    dsimp only at hc
    split at h
    · next hleaf =>
      rw [if_pos hleaf, flatMap_singleton] at hc
      exact locator_le_fence hordered hc
    · next hleaf =>
      rw [if_neg hleaf, flatMap_assoc] at hc
      obtain ⟨below, hbelow, hc⟩ := mem_flatMap.mp hc
      obtain ⟨hfenced, before, after, hvisit⟩ := visitFences_mem h hbelow
      have hlive : below ∈ liveCells page := mem_filter.mpr ⟨hbelow, by rw [hfenced.live]; rfl⟩
      exact (ih hfenced hvisit hc).trans (locator_le_fence hordered hlive)

/-! ## The traversal of a scan -/

/-- The leaves below some fences that a request does not pass over. -/
def scannedFences (request : IndexBtreePhysicalScanRequest) (below : UInt64 → Level) :
    List IndexBtreeCell → Level
  | [] => []
  | fence :: rest =>
    if fenceHighKeyBelowScanRequest request fence then scannedFences request below rest
    else if fenceHighKeyEndsScanRequest request fence then below fence.childPageNumber
    else below fence.childPageNumber ++ scannedFences request below rest

/-- The leaves below a page that a scan visits. -/
def scannedLeaves (tree : IndexBtreePhysicalTree) (request : IndexBtreePhysicalScanRequest) :
    Nat → UInt64 → Level
  | 0, _ => []
  | fuel + 1, n =>
    match fetchIndexBtreePhysicalPage tree n with
    | .error _ => []
    | .ok page =>
      if isLeafLike page then [page]
      else scannedFences request (scannedLeaves tree request fuel) page.cells

theorem scanPage_ok (h : Readable tree parent n page) (hnew : n ∉ seen) :
    scanPage tree seen parent n = .ok page := by
  have hcontains : ¬seen.contains n = true := by rwa [List.contains_iff_mem]
  have hkind : (!isLeafLike page && !isInternalLike page) = false := by
    rw [isLeafLike_eq (fetch_fits h.fetched).kind]
    cases isInternalLike page <;> rfl
  rw [scanPage, if_neg hcontains, h.fetched, ok_bind, if_neg (not_not.mpr h.index),
    if_neg (not_not.mpr h.parent), hkind, if_neg Bool.false_ne_true]

theorem checkScanFence_ok (h : Fenced tree fence) : checkScanFence page fence = .ok () := by
  rw [checkScanFence, h.leads]
  rfl

/-- The pages a scan or a count has seen, the validator has seen too. -/
theorem countFences_ok {count : UInt64 → List UInt64 → Except DiagnosticRecord (Nat × List UInt64)}
    {total : Nat} (h : visitFences tree page visit fences content = .ok content')
    (hseen : seen ⊆ content.reachablePages)
    (hcount : ∀ {m content content' seen}, visit m content = .ok content' →
      seen ⊆ content.reachablePages → ∃ k seen', count m seen = .ok (k, seen') ∧
        seen' ⊆ content'.reachablePages)
    (hext : ∀ m content content', visit m content = .ok content' →
      Extends content content' (below m)) :
    ∃ k seen', countFences page count fences total seen = .ok (k, seen') ∧
      seen' ⊆ content'.reachablePages := by
  induction fences generalizing content seen total with
  | nil =>
    cases h
    exact ⟨total, seen, rfl, hseen⟩
  | cons fence fences ih =>
    obtain ⟨⟨⟩, hcheck, h⟩ := bind_eq_ok_iff.mp h
    obtain ⟨between, hvisit, h⟩ := bind_eq_ok_iff.mp h
    rw [countFences, checkScanFence_ok (checkFence_ok hcheck), ok_bind]
    split
    · exact ih h fun n hn => (hext _ _ _ hvisit).pages (hseen hn)
    · obtain ⟨k, seen', hk, hseen'⟩ := hcount hvisit hseen
      rw [hk]
      exact ih h hseen'

/-- Counting the leaves below a page never fails where the validator got through. -/
theorem countPrunedLeafPages_ok {more : Nat}
    (h : collectReachableContent tree fuel parent n content = .ok content')
    (hseen : seen ⊆ content.reachablePages) (hmore : fuel ≤ more) :
    ∃ k seen', countPrunedLeafPages tree more parent n seen = .ok (k, seen') ∧
      seen' ⊆ content'.reachablePages := by
  induction fuel generalizing parent n content content' seen more with
  | zero => cases h
  | succ fuel ih =>
    obtain ⟨more, rfl⟩ : ∃ k, more = k + 1 := ⟨more - 1, by omega⟩
    obtain ⟨hnew, page, hread, h⟩ := collect_page h
    have hseen' : n :: seen ⊆ n :: content.reachablePages := cons_subset_cons n hseen
    rw [countPrunedLeafPages, scanPage_ok hread fun hn => hnew (hseen hn), ok_bind]
    split at h
    · next hleaf =>
      cases h
      rw [if_pos hleaf]
      exact ⟨1, _, rfl, hseen'⟩
    · next hleaf =>
      rw [if_neg hleaf]
      exact countFences_ok h hseen' (fun hm hs => ih hm hs (Nat.le_of_succ_le_succ hmore))
        fun _ _ _ => collect_extends

/-- A subtree can be passed over: only the accounting changes. -/
def Prunable (tree : IndexBtreePhysicalTree) (page : IndexBtreePageBody)
    (fence : IndexBtreeCell) : Prop :=
  ∀ state, ∃ accounting, accountPrunedSubtree tree page fence state =
    .ok { state with accounting := accounting }

theorem prunable_of_collect (hfuel : fuel ≤ tree.pages.length + 1)
    (h : collectReachableContent tree fuel page.pageNumber fence.childPageNumber content =
      .ok content') : Prunable tree page fence := by
  intro state
  rw [accountPrunedSubtree, prunedLeafPagesBelow]
  split
  · exact ⟨_, rfl⟩
  · obtain ⟨k, seen', hk, -⟩ := countPrunedLeafPages_ok h (nil_subset _) hfuel
    rw [hk]
    exact ⟨_, rfl⟩

theorem accountPrunedSubtrees_ok (h : ∀ fence ∈ fences, Prunable tree page fence) :
    ∃ accounting, accountPrunedSubtrees tree page fences state =
      .ok { state with accounting := accounting } := by
  induction fences generalizing state with
  | nil => exact ⟨state.accounting, rfl⟩
  | cons fence fences ih =>
    obtain ⟨hfence, hfences⟩ := forall_mem_cons.mp h
    obtain ⟨accounting, haccount⟩ := hfence state
    rw [accountPrunedSubtrees, haccount]
    exact ih hfences

/-- The fences of a page, from left to right. -/
theorem scanFences_ok {scan : UInt64 → ScanState → Except DiagnosticRecord ScanState}
    (h : visitFences tree page visit fences content = .ok content')
    (hseen : state.visitedPages ⊆ content.reachablePages)
    (hprune : ∀ fence ∈ fences, Prunable tree page fence)
    (hscan : ∀ {m content content' state}, visit m content = .ok content' →
      state.visitedPages ⊆ content.reachablePages →
      ∃ state', scan m state = .ok state' ∧ state'.leaves = state.leaves ++ scanned m ∧
        state'.visitedPages ⊆ content'.reachablePages)
    (hext : ∀ m content content', visit m content = .ok content' →
      Extends content content' (below m)) :
    ∃ state', scanFences tree request page scan fences state = .ok state' ∧
      state'.leaves = state.leaves ++ scannedFences request scanned fences ∧
      state'.visitedPages ⊆ content'.reachablePages := by
  induction fences generalizing content state with
  | nil =>
    cases h
    exact ⟨state, rfl, (append_nil _).symm, hseen⟩
  | cons fence fences ih =>
    obtain ⟨⟨⟩, hcheck, h⟩ := bind_eq_ok_iff.mp h
    obtain ⟨between, hvisit, h⟩ := bind_eq_ok_iff.mp h
    obtain ⟨hfence, hfences⟩ := forall_mem_cons.mp hprune
    rw [scanFences, checkScanFence_ok (checkFence_ok hcheck), ok_bind, scannedFences]
    split
    · obtain ⟨accounting, haccount⟩ := hfence state
      rw [haccount, ok_bind]
      exact ih h (fun n hn => (hext _ _ _ hvisit).pages (hseen hn)) hfences
    · obtain ⟨state₁, hfirst, hleaves, hpages⟩ := hscan hvisit hseen
      rw [hfirst, ok_bind]
      split
      · obtain ⟨accounting, haccount⟩ := @accountPrunedSubtrees_ok _ _ _ state₁ hfences
        exact ⟨_, haccount, hleaves,
          fun n hn => (visitFences_extends h hext).pages (hpages hn)⟩
      · obtain ⟨state', hstate, hleaves', hpages'⟩ := ih h hpages hfences
        refine ⟨state', hstate, ?_, hpages'⟩
        rw [hleaves', hleaves, append_assoc]

/-- A scan gets through where the validator did. -/
theorem collectPrunedScanLeaves_ok
    (h : collectReachableContent tree fuel parent n content = .ok content')
    (hseen : state.visitedPages ⊆ content.reachablePages) (hfuel : fuel ≤ tree.pages.length + 1) :
    ∃ state', collectPrunedScanLeaves tree request fuel parent n state = .ok state' ∧
      state'.leaves = state.leaves ++ scannedLeaves tree request fuel n ∧
      state'.visitedPages ⊆ content'.reachablePages := by
  induction fuel generalizing parent n content content' state with
  | zero => cases h
  | succ fuel ih =>
    obtain ⟨hnew, page, hread, h⟩ := collect_page h
    rw [collectPrunedScanLeaves, scanPage_ok hread fun hn => hnew (hseen hn), ok_bind,
      scannedLeaves, hread.fetched]
    dsimp only
    have hseen' : n :: state.visitedPages ⊆ n :: content.reachablePages := cons_subset_cons n hseen
    split at h
    · next hleaf =>
      cases h
      rw [if_pos hleaf, if_pos hleaf]
      exact ⟨_, rfl, rfl, hseen'⟩
    · next hleaf =>
      rw [if_neg hleaf, if_neg hleaf]
      have hprune : ∀ fence ∈ page.cells, Prunable tree page fence := by
        intro fence hfence
        obtain ⟨-, before, after, hvisit⟩ := visitFences_mem h hfence
        exact prunable_of_collect (by omega) hvisit
      exact scanFences_ok h hseen' hprune (fun hm hs => ih hm hs (by omega))
        fun _ _ _ => collect_extends

theorem scannedFences_sublist (h : ∀ m, scanned m <+ below m) :
    scannedFences request scanned fences <+
      fences.flatMap fun fence => below fence.childPageNumber := by
  induction fences with
  | nil => exact List.Sublist.slnil
  | cons fence fences ih =>
    rw [scannedFences, flatMap_cons]
    split
    · exact ih.trans (sublist_append_right _ _)
    · split
      · exact (h _).trans (sublist_append_left _ _)
      · exact (h _).append ih

theorem scannedLeaves_sublist : scannedLeaves tree request fuel n <+ leavesBelow tree fuel n := by
  induction fuel generalizing n with
  | zero => exact List.Sublist.slnil
  | succ fuel ih =>
    rw [scannedLeaves, leavesBelow]
    split
    · exact List.Sublist.slnil
    · split
      · exact List.Sublist.refl _
      · exact scannedFences_sublist fun _ => ih

/-- A scan without bounds visits every leaf. -/
theorem scannedLeaves_all : scannedLeaves tree {} fuel n = leavesBelow tree fuel n := by
  have hfences : ∀ (below : UInt64 → Level) (fences : List IndexBtreeCell),
      scannedFences {} below fences =
        fences.flatMap fun fence => below fence.childPageNumber := by
    intro below fences
    induction fences with
    | nil => rfl
    | cons fence fences ih => exact congrArg (below fence.childPageNumber ++ ·) ih
  induction fuel generalizing n with
  | zero => rfl
  | succ fuel ih =>
    rw [scannedLeaves, leavesBelow, funext fun m => @ih m]
    simp only [hfences]

/-! ## Fences that keep subtrees apart -/

/-- No fence is above a live cell below a later fence of its page. -/
def FencesApart (tree : IndexBtreePhysicalTree) : Nat → UInt64 → Prop
  | 0, _ => True
  | fuel + 1, n => ∀ page, fetchIndexBtreePhysicalPage tree n = .ok page → isLeafLike page = false →
      (page.cells.Pairwise fun f g =>
        ∀ c ∈ (leavesBelow tree fuel g.childPageNumber).flatMap liveCells,
          compareEncodedKeysOnly f.encodedKey c.encodedKey ≠ .gt) ∧
      ∀ f ∈ page.cells, FencesApart tree fuel f.childPageNumber

instance decidableFencesApart (fuel : Nat) (n : UInt64) : Decidable (FencesApart tree fuel n) :=
  match fuel with
  | 0 => isTrue trivial
  | fuel + 1 =>
    have := decidableFencesApart fuel
    inferInstanceAs (Decidable (∀ page, fetchIndexBtreePhysicalPage tree n = .ok page →
      isLeafLike page = false → _ ∧ ∀ f ∈ page.cells, FencesApart tree fuel f.childPageNumber))

section

variable (hvalid : validateScanRequest request = .ok ())
include hvalid

/-- Between such fences a scan passes over nothing it asks for. -/
theorem scannedFences_asked
    (hfence : ∀ f ∈ fences, isOrderPreservingEncodedKey f.encodedKey = true)
    (hbelow : ∀ f ∈ fences, ∀ c ∈ (below f.childPageNumber).flatMap liveCells,
      isOrderPreservingEncodedKey c.encodedKey = true ∧
        orderedKey c.encodedKey ≤ orderedKey f.encodedKey)
    (hapart : fences.Pairwise fun f g => ∀ c ∈ (below g.childPageNumber).flatMap liveCells,
      compareEncodedKeysOnly f.encodedKey c.encodedKey ≠ .gt)
    (hscanned : ∀ f ∈ fences, ((scanned f.childPageNumber).flatMap liveCells).filter
        (scanRequestIncludesCell request) =
      ((below f.childPageNumber).flatMap liveCells).filter (scanRequestIncludesCell request)) :
    ((scannedFences request scanned fences).flatMap liveCells).filter
        (scanRequestIncludesCell request) =
      ((fences.flatMap fun f => below f.childPageNumber).flatMap liveCells).filter
        (scanRequestIncludesCell request) := by
  induction fences with
  | nil => rfl
  | cons f fences ih =>
    obtain ⟨hf, hfence⟩ := forall_mem_cons.mp hfence
    obtain ⟨hunder, hbelow⟩ := forall_mem_cons.mp hbelow
    obtain ⟨hcross, hapart⟩ := pairwise_cons.mp hapart
    obtain ⟨hfirst, hscanned⟩ := forall_mem_cons.mp hscanned
    have hrest := ih hfence hbelow hapart hscanned
    rw [scannedFences, flatMap_cons, flatMap_append, filter_append]
    split
    · next hprune =>
      have hnone : ((below f.childPageNumber).flatMap liveCells).filter
          (scanRequestIncludesCell request) = [] := by
        refine filter_eq_nil_iff.mpr fun c hc => ?_
        obtain ⟨hkey, hle⟩ := hunder c hc
        rw [not_includes_of_below hvalid hkey hprune hle]
        exact Bool.false_ne_true
      rw [hnone, nil_append]
      exact hrest
    · split
      · next hends =>
        have hnone : ((fences.flatMap fun f => below f.childPageNumber).flatMap liveCells).filter
            (scanRequestIncludesCell request) = [] := by
          refine filter_eq_nil_iff.mpr fun c hc => ?_
          rw [flatMap_assoc] at hc
          obtain ⟨g, hg, hc⟩ := mem_flatMap.mp hc
          have hle := hcross g hg c hc
          rw [compareEncodedKeysOnly_eq, ne_eq, compare_gt_iff_gt, not_lt] at hle
          rw [not_includes_of_ends hvalid (hbelow g hg c hc).1 hf hends hle]
          exact Bool.false_ne_true
        rw [hnone, append_nil]
        exact hfirst
      · rw [flatMap_append, filter_append, hfirst, hrest]

theorem scannedLeaves_asked (h : collectReachableContent tree fuel parent n content = .ok content')
    (hapart : FencesApart tree fuel n) :
    ((scannedLeaves tree request fuel n).flatMap liveCells).filter
        (scanRequestIncludesCell request) =
      ((leavesBelow tree fuel n).flatMap liveCells).filter (scanRequestIncludesCell request) := by
  induction fuel generalizing parent n content content' with
  | zero => rfl
  | succ fuel ih =>
    obtain ⟨-, page, hread, h⟩ := collect_page h
    have hapart := hapart page hread.fetched
    rw [scannedLeaves, leavesBelow, hread.fetched]
    dsimp only
    split at h
    · next hleaf => rw [if_pos hleaf, if_pos hleaf]
    · next hleaf =>
      rw [if_neg hleaf, if_neg hleaf]
      obtain ⟨hcross, hrest⟩ := hapart (Bool.not_eq_true _ ▸ hleaf)
      have hfits := (fetch_fits hread.fetched).cells
      refine scannedFences_asked hvalid (fun f hf => (hfits f hf).key) ?_ hcross ?_
      · intro f hf c hc
        obtain ⟨hfenced, before, after, hvisit⟩ := visitFences_mem h hf
        exact ⟨leavesBelow_keys c hc, Locator.key_le (locator_le_of_fenced hfenced hvisit hc)⟩
      · intro f hf
        obtain ⟨-, before, after, hvisit⟩ := visitFences_mem h hf
        exact ih hvisit (hrest f hf)

end

/-- The request for a key. -/
def pointRequest (key : Bytes) : IndexBtreePhysicalScanRequest :=
  { mode := .point, pointKey := key }

theorem pointRequest_valid (h : isOrderPreservingEncodedKey key = true) :
    validateScanRequest (pointRequest key) = .ok () := by
  have hkey : validateEncodedKey { encodedKey := key } 0 = .ok () := validateEncodedKey_ok_iff.mpr h
  show validateScanKeyBytes key "point" = .ok ()
  rw [validateScanKeyBytes, hkey]

/-- Where every live cell is found by its key, fences keep their subtrees apart. -/
theorem fences_apart_of_found {scanned : IndexBtreePhysicalScanRequest → UInt64 → Level}
    (hsub : ∀ request m, scanned request m <+ below m)
    (hnodup : ((fences.flatMap fun f => below f.childPageNumber).flatMap liveCells).Nodup)
    (hfound : ∀ c ∈ (fences.flatMap fun f => below f.childPageNumber).flatMap liveCells,
      c ∈ (scannedFences (pointRequest c.encodedKey) (scanned (pointRequest c.encodedKey))
        fences).flatMap liveCells) :
    (fences.Pairwise fun f g => ∀ c ∈ (below g.childPageNumber).flatMap liveCells,
      compareEncodedKeysOnly f.encodedKey c.encodedKey ≠ .gt) ∧
    ∀ f ∈ fences, ∀ c ∈ (below f.childPageNumber).flatMap liveCells,
      c ∈ (scanned (pointRequest c.encodedKey) f.childPageNumber).flatMap liveCells := by
  induction fences with
  | nil => exact ⟨List.Pairwise.nil, forall_mem_nil _⟩
  | cons f fences ih =>
    rw [flatMap_cons, flatMap_append] at hnodup hfound
    obtain ⟨-, hrestNodup, hdisjoint⟩ := nodup_append'.mp hnodup
    -- A cell below a later fence is not below the first, so the scan goes on to it.
    have hlater : ∀ c ∈ (fences.flatMap fun f => below f.childPageNumber).flatMap liveCells,
        compareEncodedKeysOnly f.encodedKey c.encodedKey ≠ .gt ∧
          c ∈ (scannedFences (pointRequest c.encodedKey) (scanned (pointRequest c.encodedKey))
            fences).flatMap liveCells := by
      intro c hc
      have hnot : c ∉ (scanned (pointRequest c.encodedKey) f.childPageNumber).flatMap liveCells :=
        fun hmem => hdisjoint (((hsub _ _).flatMap liveCells).subset hmem) hc
      have hmem := hfound c (mem_append_right _ hc)
      rw [scannedFences] at hmem
      split at hmem
      · next hprune =>
        have hlt : compareEncodedKeysOnly f.encodedKey c.encodedKey = .lt := beq_iff_eq.mp hprune
        exact ⟨by rw [hlt]; decide, hmem⟩
      · split at hmem
        · exact absurd hmem hnot
        · next hgoes =>
          rw [flatMap_append] at hmem
          exact ⟨fun hgt => hgoes (beq_iff_eq.mpr hgt), (mem_append.mp hmem).resolve_left hnot⟩
    obtain ⟨hpairwise, hrest⟩ := ih hrestNodup fun c hc => (hlater c hc).2
    refine ⟨pairwise_cons.mpr ⟨fun g hg c hc => (hlater c ?_).1, hpairwise⟩,
      forall_mem_cons.mpr ⟨fun c hc => ?_, hrest⟩⟩
    · rw [flatMap_assoc]
      exact mem_flatMap.mpr ⟨g, hg, hc⟩
    · have hnot : c ∉ (scannedFences (pointRequest c.encodedKey)
          (scanned (pointRequest c.encodedKey)) fences).flatMap liveCells := fun hmem =>
        hdisjoint hc (((scannedFences_sublist (hsub _)).flatMap liveCells).subset hmem)
      have hmem := hfound c (mem_append_left _ hc)
      rw [scannedFences] at hmem
      split at hmem
      · exact absurd hmem hnot
      · split at hmem
        · exact hmem
        · rw [flatMap_append] at hmem
          exact (mem_append.mp hmem).resolve_right hnot

theorem fencesApart_of_found (hnodup : ((leavesBelow tree fuel n).flatMap liveCells).Nodup)
    (hfound : ∀ c ∈ (leavesBelow tree fuel n).flatMap liveCells,
      c ∈ (scannedLeaves tree (pointRequest c.encodedKey) fuel n).flatMap liveCells) :
    FencesApart tree fuel n := by
  induction fuel generalizing n with
  | zero => trivial
  | succ fuel ih =>
    intro page hpage hleaf
    simp only [leavesBelow, scannedLeaves, hpage, hleaf, Bool.false_eq_true, if_false]
      at hnodup hfound
    obtain ⟨hapart, hrest⟩ := @fences_apart_of_found page.cells (leavesBelow tree fuel)
      (fun request => scannedLeaves tree request fuel) (fun _ _ => scannedLeaves_sublist) hnodup
      hfound
    refine ⟨hapart, fun f hf => ih ?_ (hrest f hf)⟩
    rw [flatMap_assoc] at hnodup
    exact (List.nodup_flatMap.mp hnodup).1 f hf

/-! ## Fences of an ordered index -/

theorem fence_key {front : List IndexBtreeCell} (h : liveCells p = front ++ [c]) :
    (fenceCellForPage p).encodedKey = c.encodedKey := by
  rw [fenceCellForPage, lastLiveCell_eq, h, getLast?_concat]
  rfl

/-- The fence of a page is a live cell below it. The induction is on the height. -/
theorem fence_below (h : PageForest tree height [p] leaves numbers)
    (hfilled : ∀ l ∈ leaves, liveCells l ≠ []) :
    ∃ m ∈ leaves.flatMap liveCells, m.encodedKey = (fenceCellForPage p).encodedKey := by
  induction height generalizing p leaves numbers with
  | zero =>
    cases h with
    | leaf hat rest =>
      cases rest with
      | nil =>
        rw [flatMap_singleton]
        obtain ⟨front, m, hlive⟩ := (eq_nil_or_concat'
          (liveCells p)).resolve_left (hfilled p mem_cons_self)
        exact ⟨m, by rw [hlive]; simp, (fence_key hlive).symm⟩
  | succ height ih =>
    cases h with
    | @node _ _ _ children L _ N _ hat hdown below rest =>
      cases rest with
      | nil =>
        rw [append_nil] at hfilled ⊢
        have hcells := cells_of_down hdown
        have hlive : liveCells p = p.cells := by
          refine liveCells_of_undeleted ?_
          rw [hcells]
          exact forall_mem_map.mpr fun _ _ => rfl
        have hne : children ≠ [] := by
          rintro rfl
          exact hat.fences (Nat.succ_ne_zero _) hcells
        obtain ⟨front, q, hchildren⟩ := (eq_nil_or_concat' children).resolve_left hne
        obtain ⟨M, K, hforest, hsub⟩ := below.part (show q ∈ children by rw [hchildren]; simp)
        obtain ⟨m, hm, hkey⟩ := ih hforest fun l hl => hfilled l (hsub hl)
        have hlast : liveCells p = front.map fenceCellForPage ++ [fenceCellForPage q] := by
          rw [hlive, hcells, hchildren, map_append]
          rfl
        obtain ⟨l, hl, hm⟩ := mem_flatMap.mp hm
        exact ⟨m, mem_flatMap.mpr ⟨l, hsub hl, hm⟩, hkey.trans (fence_key hlast).symm⟩

theorem cells_of_forest (h : PageForest tree height [p] leaves numbers) :
    (leavesBelow tree fuel p.pageNumber).flatMap liveCells ⊆ leaves.flatMap liveCells := by
  induction fuel generalizing p height leaves numbers with
  | zero => exact nil_subset _
  | succ fuel ih =>
    have hat := pageAt_head h
    rw [leavesBelow, hat.stored.fetched]
    dsimp only
    have hkind : isLeafLike (p.settled tree.pageSize) = isLeafLike p := rfl
    rw [hkind, isLeafLike_of_pageAt hat]
    cases h with
    | leaf hat rest =>
      cases rest
      exact fun _ hm => hm
    | @node _ _ _ children L _ N _ hat hdown below rest =>
      cases rest
      rw [if_neg (by simp), append_nil, flatMap_assoc]
      show p.cells.flatMap _ ⊆ _
      rw [cells_of_down hdown, flatMap_map]
      intro c hc
      obtain ⟨q, hq, hc⟩ := mem_flatMap.mp hc
      obtain ⟨M, K, hforest, hsub⟩ := below.part hq
      obtain ⟨l, hl, hc⟩ := mem_flatMap.mp (ih hforest hc)
      exact mem_flatMap.mpr ⟨l, hsub hl, hc⟩

theorem fences_apart_of_row
    (happly : ∀ {q L N}, PageForest tree height [q] L N → (∀ l ∈ L, liveCells l ≠ []) →
      Ascending (L.flatMap liveCells) → FencesApart tree fuel q.pageNumber)
    (h : PageForest tree height row leaves numbers) (hfilled : ∀ l ∈ leaves, liveCells l ≠ [])
    (hasc : Ascending (leaves.flatMap liveCells)) :
    ((row.map fenceCellForPage).Pairwise fun f g =>
      ∀ c ∈ (leavesBelow tree fuel g.childPageNumber).flatMap liveCells,
        compareEncodedKeysOnly f.encodedKey c.encodedKey ≠ .gt) ∧
    ∀ f ∈ row.map fenceCellForPage, FencesApart tree fuel f.childPageNumber := by
  induction row generalizing leaves numbers with
  | nil => exact ⟨List.Pairwise.nil, forall_mem_nil _⟩
  | cons q row ih =>
    obtain ⟨L, L', N, N', rfl, rfl, hq, hrow⟩ := Forest.split (A := [q]) (B := row) h
    obtain ⟨hfilledL, hfilledR⟩ := forall_mem_append.mp hfilled
    rw [flatMap_append] at hasc
    obtain ⟨hascL, hascR, hcross⟩ := pairwise_append.mp hasc
    obtain ⟨m, hm, hkey⟩ := fence_below hq hfilledL
    obtain ⟨hpairwise, hrest⟩ := ih hrow hfilledR hascR
    rw [map_cons]
    refine ⟨pairwise_cons.mpr ⟨?_, hpairwise⟩,
      forall_mem_cons.mpr ⟨happly hq hfilledL hascL, hrest⟩⟩
    intro g hg c hc
    obtain ⟨q', hq', rfl⟩ := mem_map.mp hg
    obtain ⟨M, K, hforest, hsub⟩ := hrow.part hq'
    obtain ⟨l, hl, hc⟩ := mem_flatMap.mp (cells_of_forest hforest hc)
    have hlt := hcross m hm c (mem_flatMap.mpr ⟨l, hsub hl, hc⟩)
    rw [← hkey, compareEncodedKeysOnly_eq, ne_eq, compare_gt_iff_gt, not_lt]
    exact Locator.key_le (le_of_lt hlt)

theorem fencesApart_of_forest (h : PageForest tree height [p] leaves numbers)
    (hfilled : height ≠ 0 → ∀ l ∈ leaves, liveCells l ≠ [])
    (hasc : Ascending (leaves.flatMap liveCells)) : FencesApart tree fuel p.pageNumber := by
  induction fuel generalizing p height leaves numbers with
  | zero => trivial
  | succ fuel ih =>
    have hat := pageAt_head h
    intro page hpage hleaf
    rw [hat.stored.fetched] at hpage
    cases hpage
    have hkind : isLeafLike (p.settled tree.pageSize) = isLeafLike p := rfl
    rw [hkind, isLeafLike_of_pageAt hat] at hleaf
    cases h with
    | leaf hat rest => cases hleaf
    | @node height _ _ children L _ N _ hat hdown below rest =>
      cases rest
      rw [append_nil] at hfilled hasc
      show (p.cells.Pairwise _) ∧ ∀ f ∈ p.cells, _
      rw [cells_of_down hdown]
      exact fences_apart_of_row (fun hq hL hascL => ih hq (fun _ => hL) hascL) below
        (hfilled (Nat.succ_ne_zero _)) hasc

end Traversal

/-! ## The answer of a scan -/

def BtreeEntry.locator (entry : BtreeEntry) : Locator :=
  ⟨orderedKey entry.encodedKey, entry.rowUuid.bytes, entry.versionUuid.bytes⟩

def IndexBtreePhysicalRowLocator.entry (locator : IndexBtreePhysicalRowLocator) :
    BtreeEntry :=
  { encodedKey := locator.encodedKey
    rowUuid := locator.rowUuid.value
    versionUuid := locator.versionUuid.value }

/-- Entries in the order a request wants them. -/
def IndexBtreePhysicalScanRequest.arrange
    (request : IndexBtreePhysicalScanRequest) (entries : List BtreeEntry) : List BtreeEntry :=
  match request.ordering with
  | .forward => entries
  | .reverse => entries.reverse

/-- A limit of zero is no limit. -/
def IndexBtreePhysicalScanRequest.truncate
    (request : IndexBtreePhysicalScanRequest) (entries : List BtreeEntry) : List BtreeEntry :=
  if request.limit = 0 then entries else entries.take request.limit

theorem leafLocators_entries (hplain : ∀ c ∈ leaf.cells, c.highKey = false) :
    (leafLocators request leaf).map (·.entry) =
      ((liveCells leaf).filter (scanRequestIncludesCell request)).map (·.entry) := by
  have hfilter : ∀ cells : List IndexBtreeCell, ∀ i, (∀ c ∈ cells, c.highKey = false) →
      ((((cells.zipIdx i).filter fun x =>
        !(x.1.deleted || x.1.highKey || !scanRequestIncludesCell request x.1)).map
            fun x => locatorOf leaf x.1 x.2).map (·.entry)) =
      ((cells.filter (!·.deleted)).filter (scanRequestIncludesCell request)).map (·.entry) := by
    intro cells
    induction cells with
    | nil =>
      intro i _
      rfl
    | cons c cells ih =>
      intro i hcells
      obtain ⟨hc, hcells⟩ := forall_mem_cons.mp hcells
      have hrest := ih (i + 1) hcells
      cases hdeleted : c.deleted with
      | true => simpa [hdeleted] using hrest
      | false =>
        cases hinclude : scanRequestIncludesCell request c with
        | false => simpa [hdeleted, hinclude] using hrest
        | true =>
          have hentry : (locatorOf leaf c i).entry = c.entry := rfl
          simpa [hdeleted, hc, hinclude, hentry] using hrest
  exact hfilter leaf.cells 0 hplain

theorem locators_entries (h : ∀ leaf ∈ leaves, PageFits leaf ∧ isLeafLike leaf = true) :
    (leaves.flatMap (leafLocators request)).map (·.entry) =
      ((leaves.flatMap liveCells).filter (scanRequestIncludesCell request)).map (·.entry) := by
  rw [List.map_flatMap, List.filter_flatMap, List.map_flatMap]
  refine flatMap_congr fun leaf hleaf => leafLocators_entries fun c hc => ?_
  obtain ⟨hfits, hkind⟩ := h leaf hleaf
  rw [isLeafLike_eq hfits.kind, Bool.not_eq_true'] at hkind
  have hcell := hfits.cells c hc
  rw [hkind] at hcell
  exact hcell.highKey

/-- The entries a request asks for ascend. -/
theorem Arranged.asked_ascending (h : Arranged tree leaves levels) :
    (((leaves.flatMap liveCells).filter (scanRequestIncludesCell request)).map
      (·.entry)).Pairwise fun a b => a.locator < b.locator :=
  pairwise_map.mpr (h.leaves.ascending.filter _)

/-- Locators that ascend are not moved by sorting. -/
theorem orderLocators_entries
    (h : (locators.map (·.entry)).Pairwise fun a b => a.locator < b.locator) :
    (orderLocators request.ordering locators).map (·.entry) =
      request.arrange (locators.map (·.entry)) := by
  have hsorted : locators.insertionSort locatorNotBefore = locators := by
    refine List.Pairwise.insertionSort_eq ((pairwise_map.mp h).imp ?_)
    intro a b hab heq
    have hlt : compare b.entry.locator a.entry.locator = .lt := heq
    exact absurd (compare_lt_iff_lt.mp hlt) (not_lt.mpr (le_of_lt hab))
  rw [orderLocators.eq_def, IndexBtreePhysicalScanRequest.arrange]
  cases request.ordering with
  | forward => simp only [hsorted]
  | reverse => simp only [hsorted, List.map_reverse]

theorem limitLocators_entries :
    (limitLocators request.limit locators).map (·.entry) =
      request.truncate (locators.map (·.entry)) := by
  rw [limitLocators, IndexBtreePhysicalScanRequest.truncate]
  split
  · next hlimit => rw [if_neg (by omega), List.map_take]
  · next hlimit =>
    split
    · rfl
    · rw [List.take_of_length_le]
      rw [length_map]
      omega

/-- A scan gathers the locators of the cells it visits and includes. -/
theorem scan_gathers {content : ReachableContent} (hcollect : collectFromRoot tree = .ok content) :
    ∃ state, collectPrunedScanLeaves tree request (tree.pages.length + 1) 0 tree.rootPageNumber {} =
        .ok state ∧
      (state.leaves.flatMap (leafLocators request)).map (·.entry) =
        (((scannedLeaves tree request (tree.pages.length + 1) tree.rootPageNumber).flatMap
          liveCells).filter (scanRequestIncludesCell request)).map (·.entry) := by
  obtain ⟨state, hstate, hleaves, -⟩ := @collectPrunedScanLeaves_ok tree _ request 0 {} content
    tree.rootPageNumber {} hcollect (nil_subset _) le_rfl
  refine ⟨state, hstate, ?_⟩
  rw [hleaves]
  exact locators_entries fun leaf hleaf => leavesBelow_fits (scannedLeaves_sublist.subset hleaf)

section

variable {content : ReachableContent} (hroot : tree.rootPageNumber ≠ 0)
  (hcollect : collectFromRoot tree = .ok content) (hasc : Ascending content.liveEntries)
  (hvalid : validateScanRequest request = .ok ())
include hroot hcollect hasc hvalid

/-- The scan of a tree whose pages the validator can traverse. -/
theorem scan_scanned : ∃ result, scanIndexBtreePhysicalTree tree request = .ok result ∧
    result.locators.map (·.entry) = request.truncate (request.arrange
      ((((scannedLeaves tree request (tree.pages.length + 1) tree.rootPageNumber).flatMap
        liveCells).filter (scanRequestIncludesCell request)).map (·.entry))) := by
  obtain ⟨state, hstate, hentries⟩ := @scan_gathers tree request content hcollect
  refine ⟨⟨limitLocators request.limit (orderLocators request.ordering
    (state.leaves.flatMap (leafLocators request))), state.accounting⟩, ?_, ?_⟩
  · rw [scanIndexBtreePhysicalTree, if_neg hroot, hvalid, ok_bind, hstate]
    rfl
  · show (limitLocators request.limit (orderLocators request.ordering
      (state.leaves.flatMap (leafLocators request)))).map (·.entry) = _
    rw [limitLocators_entries, orderLocators_entries, hentries]
    rw [hentries]
    rw [(collect_extends hcollect).entries] at hasc
    exact pairwise_map.mpr ((hasc.sublist (scannedLeaves_sublist.flatMap liveCells)).filter _)

omit hvalid in
/-- A scan without bounds answers all live entries. -/
theorem full_scan :
    ∃ result, scanIndexBtreePhysicalTree tree {} = .ok result ∧
      result.locators.map (·.entry) = content.liveEntries.map (·.entry) := by
  obtain ⟨result, hresult, hentries⟩ := @scan_scanned tree {} content hroot hcollect hasc rfl
  refine ⟨result, hresult, hentries.trans ?_⟩
  have hall : ∀ cells : List IndexBtreeCell, cells.filter (scanRequestIncludesCell {}) = cells :=
    fun _ => List.filter_eq_self.mpr fun _ _ => rfl
  rw [hall, scannedLeaves_all, (collect_extends hcollect).entries]
  rfl

/-- Where fences keep their subtrees apart, it answers all that is asked for. -/
theorem scan_asked (hapart : FencesApart tree (tree.pages.length + 1) tree.rootPageNumber) :
    ∃ result, scanIndexBtreePhysicalTree tree request = .ok result ∧
      result.locators.map (·.entry) = request.truncate (request.arrange
        ((content.liveEntries.filter (scanRequestIncludesCell request)).map (·.entry))) := by
  obtain ⟨result, hresult, hentries⟩ := scan_scanned hroot hcollect hasc hvalid
  rw [scannedLeaves_asked hvalid hcollect hapart] at hentries
  rw [(collect_extends hcollect).entries]
  exact ⟨result, hresult, hentries⟩

end

section

variable (h : Arranged tree leaves levels)
include h

theorem Arranged.fencesApart : FencesApart tree fuel tree.rootPageNumber := by
  obtain ⟨root, numbers, hunseen, hroot⟩ := h.unseen
  rw [← hroot]
  refine fencesApart_of_forest hunseen.forest (fun hne => h.leaves.filled ?_) h.leaves.ascending
  cases levels with
  | nil => exact absurd rfl hne
  | cons row levels => rfl

/-- The scan of an ordered index. -/
theorem Arranged.scan (hvalid : validateScanRequest request = .ok ()) :
    ∃ result, scanIndexBtreePhysicalTree tree request = .ok result ∧
      result.locators.map (·.entry) = request.truncate (request.arrange
        (((leaves.flatMap liveCells).filter (scanRequestIncludesCell request)).map (·.entry))) := by
  obtain ⟨numbers, hcollect⟩ := h.collectFromRoot_eq
  exact scan_asked h.root_ne_zero hcollect h.leaves.ascending hvalid h.fencesApart

theorem Arranged.full_scan :
    ∃ result, scanIndexBtreePhysicalTree tree {} = .ok result ∧ result.locators.map (·.entry) =
        (leaves.flatMap liveCells).map (·.entry) := by
  obtain ⟨numbers, hcollect⟩ := h.collectFromRoot_eq
  exact Btree.full_scan h.root_ne_zero hcollect h.leaves.ascending

end

theorem scan_valid {result : IndexBtreePhysicalScanResult}
    (h : scanIndexBtreePhysicalTree tree request = .ok result) :
    validateScanRequest request = .ok () := by
  rw [scanIndexBtreePhysicalTree] at h
  split at h
  · cases h
  · obtain ⟨⟨⟩, hvalid, -⟩ := bind_eq_ok_iff.mp h
    exact hvalid

open scoped Classical in
/-- What a valid request includes is what it asks for. -/
theorem Arranged.asked_eq_filter (h : Arranged tree leaves levels)
    (hvalid : validateScanRequest request = .ok ()) :
    ((((leaves.flatMap liveCells).filter (scanRequestIncludesCell request)).map
      (·.entry) : List BtreeEntry) : Multiset BtreeEntry) =
    (((leaves.flatMap liveCells).map (·.entry) : List BtreeEntry) :
      Multiset BtreeEntry).filter (fun entry => request.Asks entry.encodedKey) := by
  rw [Multiset.filter_coe, List.filter_map]
  refine congrArg (fun cells : List IndexBtreeCell =>
    ((cells.map (·.entry) : List BtreeEntry) : Multiset BtreeEntry)) ?_
  refine filter_congr fun c hc => ?_
  have hiff := scanRequestIncludesCell_iff hvalid (h.keys c hc)
  exact Bool.eq_iff_iff.mpr (hiff.trans decide_eq_true_iff.symm)

/-- Ordered indexes with the same entries give every request the same answer, or
refuse it for the same reason. -/
theorem Arranged.scans_alike {tree' : IndexBtreePhysicalTree} {leaves' : Level}
    {levels' : List Level} (h : Arranged tree leaves levels) (h' : Arranged tree' leaves' levels')
    (hsame : reachableEntries tree = reachableEntries tree') :
    (scanIndexBtreePhysicalTree tree request).map (·.locators.map (·.entry)) =
      (scanIndexBtreePhysicalTree tree' request).map (·.locators.map (·.entry)) := by
  rw [h.reachableEntries_eq, h'.reachableEntries_eq] at hsame
  cases hvalid : validateScanRequest request with
  | error reason =>
    rw [scanIndexBtreePhysicalTree, scanIndexBtreePhysicalTree, if_neg h.root_ne_zero,
      if_neg h'.root_ne_zero, hvalid, error_bind, error_bind]
  | ok =>
    obtain ⟨answer, hscan, hanswer⟩ := h.scan hvalid
    obtain ⟨answer', hscan', hanswer'⟩ := h'.scan hvalid
    have hperm := h.asked_eq_filter hvalid
    rw [Except.ok.inj hsame, ← h'.asked_eq_filter hvalid, Multiset.coe_eq_coe] at hperm
    -- Ascending lists of the same locators are equal.
    have hasked := hperm.eq_of_pairwise (fun a b _ _ hab hba => (hab.asymm hba).elim)
      h.asked_ascending h'.asked_ascending
    rw [hscan, hscan', Except.map, Except.map, hanswer, hanswer', hasked]

open scoped Classical in
/-- In a run that inserts no live cell twice, every valid request is answered,
and the answer is the asked entries in their order, up to the limit. -/
theorem reached_scan_exact {tree : IndexBtreePhysicalTree} (h : Reached insertsNewEntries tree)
    (request : IndexBtreePhysicalScanRequest) :
    ((∃ result, scanIndexBtreePhysicalTree tree request = .ok result) ↔
      validateScanRequest request = .ok ()) ∧
    ∀ result, scanIndexBtreePhysicalTree tree request = .ok result →
      ∃ entries, reachableEntries tree = .ok entries ∧ ∃ asked : List BtreeEntry,
        asked.Pairwise (fun a b => a.locator < b.locator) ∧ (asked : Multiset BtreeEntry) =
          entries.filter (fun entry => request.Asks entry.encodedKey) ∧
        result.locators.map (·.entry) = request.truncate (request.arrange asked) := by
  obtain ⟨leaves, levels, harranged⟩ := h.arranged
  refine ⟨⟨?_, fun hvalid => ?_⟩, fun result hresult => ?_⟩
  · rintro ⟨result, hresult⟩
    exact scan_valid hresult
  · obtain ⟨result, hresult, -⟩ := harranged.scan hvalid
    exact ⟨result, hresult⟩
  · have hvalid := scan_valid hresult
    obtain ⟨answer, hanswer, hentries⟩ := harranged.scan hvalid
    obtain rfl : result = answer := Except.ok.inj (hresult.symm.trans hanswer)
    refine ⟨_, harranged.reachableEntries_eq, _, harranged.asked_ascending, ?_, hentries⟩
    exact harranged.asked_eq_filter hvalid

/-- The last three of the four cells, from the back. -/
theorem sampleRun_scan_exact : ∃ tree, runFrom sampleIndex 512 sampleRun = .ok tree ∧
    ∃ result, scanIndexBtreePhysicalTree tree { ordering := .reverse, limit := 3 } = .ok result ∧
      result.locators.map (·.entry) = [(sampleCell [5] 5).entry, (sampleCell [4, 0, 0] 4).entry,
        (sampleCell [3] 3).entry] := by
  classical
  obtain ⟨tree, hrun, -, hcells, -⟩ := sampleRun_tree
  obtain ⟨hanswers, hexact⟩ := reached_scan_exact (reached_of_admitted sampleRun_admitted hrun)
    { ordering := .reverse, limit := 3 }
  obtain ⟨result, hresult⟩ := hanswers.mpr rfl
  obtain ⟨entries, hentries, asked, hascending, hasked, heq⟩ := hexact result hresult
  rw [reachableEntries_of_collect hcells] at hentries
  cases hentries
  have hall : (asked : Multiset BtreeEntry) = (sampleCells.map (·.entry) : List BtreeEntry) :=
    hasked.trans (Multiset.filter_eq_self.mpr fun _ _ => ⟨.inl rfl, .inl rfl⟩)
  have hsorted : (sampleCells.map (·.entry)).Pairwise fun a b => a.locator < b.locator := by
    decide +kernel
  have hlist := (Multiset.coe_eq_coe.mp hall).eq_of_pairwise
    (fun a b _ _ hab hba => (hab.asymm hba).elim) hascending hsorted
  rw [hlist] at heq
  exact ⟨tree, hrun, result, hresult, heq⟩

/-- Equal cells may fall on both sides of a split. The fence of the left side is
then not below the right side, and a descent for a smaller key goes right. -/
theorem scan_misses_live_entry : ∃ tree request entry entries result,
    Reached anyCall tree ∧ reachableEntries tree = .ok entries ∧
      entry ∈ entries ∧ request.mode = .point ∧ request.pointKey = entry.encodedKey ∧
      scanIndexBtreePhysicalTree tree request = .ok result ∧ result.locators = [] := by
  obtain ⟨tree, hrun, ⟨entries, hentries, hmem⟩, result, hresult, hnone⟩ :
      ∃ tree, runFrom sampleIndex 432 [.insert (sampleCell [1] 1), .insert (sampleCell [2] 2),
          .insert (sampleCell [2] 2), .insert (sampleCell [2] 2)] = .ok tree ∧
        (∃ entries, reachableEntries tree = .ok entries ∧ (sampleCell [1] 1).entry ∈ entries) ∧
        ∃ result, scanIndexBtreePhysicalTree tree
            { mode := .point, pointKey := (sampleCell [1] 1).encodedKey } = .ok result ∧
          result.locators = [] := by
    decide +kernel
  exact ⟨tree, _, _, entries, result, reached_of_runFrom hrun, hentries, hmem, rfl, rfl, hresult,
    hnone⟩

end ScratchBird.Btree
