import ScratchBird.Index.BtreeBulk
import ScratchBird.Proofs.BtreeRoom

/-!
# Packing sorted cells into levels of pages

The packing loop cuts a list of cells into groups, one a page, with numbers
counted up. A level is packed from the cells of the request or from the fences of
the level below, and its pages are linked afterwards.
-/

namespace ScratchBird.Btree

open Lib List
open Storage (isTypedEngineIdentity kPageHeaderSerializedBytes)

variable {cell c a b : IndexBtreeCell} {cells group : List IndexBtreeCell}
  {groups : List (List IndexBtreeCell)} {n left m : UInt64} {pageSize capacity : UInt32}
  {request : IndexBtreePhysicalBulkBuildRequest} {level : UInt16} {state state' : BulkState}
  {row : Level} {rounds i k : Nat}

/-! ## Groups -/

/-- The page of a number with the cells of a group. -/
def BulkPacking.page (packing : BulkPacking) (n : UInt64)
    (group : List IndexBtreeCell) : IndexBtreePageBody := { packing.blank n with cells := group }

/-- The pages of the groups, with numbers counted up from `n`. -/
def BulkPacking.pages (packing : BulkPacking) : UInt64 → List (List IndexBtreeCell) → Level
  | _, [] => []
  | n, group :: groups => packing.page n group :: packing.pages (n + 1) groups

/-- Blank pages have the number they are asked for and no cells. -/
structure BulkPacking.Plain (packing : BulkPacking) : Prop where
  number : ∀ n, (packing.blank n).pageNumber = n
  cells : ∀ n, (packing.blank n).cells = []

section Packing

variable {packing : BulkPacking} {page : IndexBtreePageBody} {packed : BulkPacked}

theorem bulkPageAcceptsCell_iff :
    bulkPageAcceptsCell page cell pageSize capacity = true ↔
      (capacity = 0 ∨ page.cells.length < capacity.toNat) ∧
        Buildable (page.withCell cell) pageSize := by
  rw [bulkPageAcceptsCell]
  split
  · next hfull =>
    simp only [Bool.false_eq_true, false_iff]
    intro hroom
    rcases hroom with hzero | hlt
    · exact absurd hzero hfull.1
    · omega
  · next hfull =>
    rw [isOk_build_iff]
    constructor
    · intro hb
      refine ⟨?_, hb⟩
      by_cases hzero : capacity = 0
      · exact .inl hzero
      · exact .inr (by
          by_contra hle
          exact hfull ⟨hzero, by omega⟩)
    · exact fun h => h.2

/-- What the packing loop makes of the cells on its first page and those to come. -/
structure Grouped (packing : BulkPacking) (n : UInt64) (group cells : List IndexBtreeCell)
    (groups : List (List IndexBtreeCell)) (packed : BulkPacked) : Prop where
  pages : packed.pages = packing.pages n groups
  next : packed.next = advance n groups.length
  content : groups.flatten = group ++ cells
  first : ∃ more rest, groups = (group ++ more) :: rest
  filled : ∀ p ∈ packed.pages, p.cells ≠ [] ∧ Buildable p packing.pageSize
  down : packed.pages.flatMap (·.down) =
    (group ++ cells).zip (group.map (fun _ => n) ++ packed.holders)
  holders : packed.holders.length = cells.length

theorem down_page (hplain : packing.Plain) :
    (packing.page n group).down = group.zip (group.map fun _ => n) := by
  show group.map (fun c => (c, (packing.blank n).pageNumber)) = _
  rw [hplain.number, List.map_prod_left_eq_zip]

/-- A cell goes to the page at hand or, where that does not take it, to a new one. -/
theorem packCells_cons (hplain : packing.Plain)
    (h : packCells packing (cell :: cells) (packing.page n group) (n + 1) = .ok packed) :
    ∃ p, (Buildable (packing.page n (group ++ [cell])) packing.pageSize ∧
        packCells packing cells (packing.page n (group ++ [cell])) (n + 1) = .ok p ∧
        packed = { p with holders := n :: p.holders }) ∨
      (group ≠ [] ∧
        ¬bulkPageAcceptsCell (packing.page n group) cell packing.pageSize packing.capacity = true ∧
        Buildable (packing.page (n + 1) [cell]) packing.pageSize ∧
        packCells packing cells (packing.page (n + 1) [cell]) (n + 1 + 1) = .ok p ∧
        packed = ⟨packing.page n group :: p.pages, (n + 1) :: p.holders, p.next⟩) := by
  rw [packCells, bind_eq_ok_iff] at h
  obtain ⟨⟨⟩, -, h⟩ := h
  split at h
  · next haccepts =>
    obtain ⟨p, hp, h⟩ := (bind_eq_ok_iff ..).mp h
    cases h
    refine ⟨p, .inl ⟨(bulkPageAcceptsCell_iff.mp haccepts).2, hp, ?_⟩⟩
    show ({ p with holders := (packing.blank n).pageNumber :: p.holders } : BulkPacked) = _
    rw [hplain.number]
  next hrefuses =>
  split at h
  · cases h
  next hgroup =>
  split at h
  · next hnew =>
    obtain ⟨p, hp, h⟩ := (bind_eq_ok_iff ..).mp h
    cases h
    have hbuild := (bulkPageAcceptsCell_iff.mp hnew).2
    have hpage : (packing.blank (n + 1)).withCell cell =
      packing.page (n + 1) ((packing.blank (n + 1)).cells ++ [cell]) := rfl
    rw [hpage, hplain.cells] at hp hbuild
    exact ⟨p, .inr ⟨hgroup, hrefuses, hbuild, hp, rfl⟩⟩
  · cases h

/-- The induction is on the cells that are left. -/
theorem packCells_ok (hplain : packing.Plain) (hstart : (group = [] ∧ cells ≠ []) ∨
      group ≠ [] ∧ Buildable (packing.page n group) packing.pageSize)
    (h : packCells packing cells (packing.page n group) (n + 1) = .ok packed) :
    ∃ groups, Grouped packing n group cells groups packed := by
  induction cells generalizing group n packed with
  | nil =>
    cases h
    have hgroup := hstart.resolve_left fun hnone => hnone.2 rfl
    refine ⟨[group], rfl, rfl, by simp, ⟨[], [], by simp⟩, ?_, ?_, rfl⟩
    · exact forall_mem_singleton.mpr hgroup
    · rw [flatMap_singleton, append_nil, append_nil, down_page hplain]
  | cons cell rest ih =>
    obtain ⟨p, ⟨hbuild, hp, rfl⟩ | ⟨hgroup, -, hbuild, hp, rfl⟩⟩ := packCells_cons hplain h
    · obtain ⟨groups, hg⟩ := ih (.inr ⟨by simp, hbuild⟩) hp
      obtain ⟨more, others, hfirst⟩ := hg.first
      refine ⟨groups, hg.pages, hg.next, ?_, ⟨cell :: more, others, ?_⟩, hg.filled, ?_, ?_⟩
      · rw [hg.content, append_assoc, singleton_append]
      · rw [hfirst, append_assoc, singleton_append]
      · have hdown := hg.down
        rw [map_append, append_assoc, append_assoc] at hdown
        exact hdown
      · rw [length_cons, length_cons, hg.holders]
    · have hpage := hstart.resolve_left fun hnone => hgroup hnone.1
      obtain ⟨groups, hg⟩ := ih (.inr ⟨by simp, hbuild⟩) hp
      refine ⟨group :: groups, ?_, hg.next, ?_, ⟨[], groups, ?_⟩, ?_, ?_, ?_⟩
      · exact congrArg (packing.page n group :: ·) hg.pages
      · rw [flatten_cons, hg.content]
        rfl
      · rw [append_nil]
      · exact forall_mem_cons.mpr ⟨hpage, hg.filled⟩
      · rw [flatMap_cons, down_page hplain, hg.down, ← List.zip_append (by simp)]
        rfl
      · rw [length_cons, length_cons, hg.holders]

theorem pages_cells : (packing.pages n groups).map (·.cells) = groups := by
  induction groups generalizing n with
  | nil => rfl
  | cons group groups ih => exact congrArg (group :: ·) ih

section

variable (h : Grouped packing n group cells groups packed)
include h

theorem Grouped.pages_flatMap : packed.pages.flatMap (·.cells) = group ++ cells := by
  rw [flatMap_def, h.pages, pages_cells, h.content]

end

end Packing

/-! ## Links -/

/-- A page without its sibling links. -/
def IndexBtreePageBody.unlinked (p : IndexBtreePageBody) : IndexBtreePageBody :=
  { p with leftSiblingPageNumber := 0, rightSiblingPageNumber := 0 }

section Linking

variable {pages : Level}

theorem linkSiblings_unlinked :
    (linkSiblings left pages).map (·.unlinked) = pages.map (·.unlinked) := by
  induction pages generalizing left with
  | nil => rfl
  | cons page rest ih => exact congrArg (page.unlinked :: ·) ih

theorem linkSiblings_links : PageLinks left (linkSiblings left pages) 0 := by
  induction pages generalizing left with
  | nil => trivial
  | cons page rest ih =>
    refine ⟨rfl, ?_, ih⟩
    cases rest with
    | nil => rfl
    | cons next rest => rfl

theorem linkSiblings_cells :
    (linkSiblings left pages).map (·.cells) = pages.map (·.cells) :=
  map_eq_of_view _ linkSiblings_unlinked fun _ => rfl

theorem linkSiblings_numbers :
    pageNumbers (linkSiblings left pages) = pageNumbers pages :=
  map_eq_of_view _ linkSiblings_unlinked fun _ => rfl

theorem linkSiblings_filled (h : ∀ p ∈ pages, p.cells ≠ []) :
    ∀ p ∈ linkSiblings left pages, p.cells ≠ [] := by
  intro p hp
  obtain ⟨q, hq, hqp⟩ := exists_of_view linkSiblings_unlinked hp
  have hcells : q.cells = p.cells := congrArg (·.cells) hqp
  rw [← hcells]
  exact h q hq

end Linking

/-! ## Rounds -/

section Rounds

variable {packed : BulkPacked} {p : IndexBtreePageBody} {front : List IndexBtreeCell}

theorem leafPacking_plain : (leafPacking request).Plain := ⟨fun _ => rfl, fun _ => rfl⟩

theorem branchPacking_plain : (branchPacking request level).Plain := ⟨fun _ => rfl, fun _ => rfl⟩

/-- The level of the parents of the current pages. -/
def BulkState.parentLevel (state : BulkState) : UInt16 :=
  (state.current.head?.map (·.treeLevel)).getD 0 + 1

/-- The packing of the parents of the current pages. -/
def BulkState.packing (request : IndexBtreePhysicalBulkBuildRequest)
    (state : BulkState) : BulkPacking := branchPacking request state.parentLevel

/-- The state when the parents of the current pages are there. -/
def BulkState.raised (state : BulkState) (packed : BulkPacked) : BulkState where
  below := state.below ++ List.zipWith (·.adoptedBy ·) state.current packed.holders
  current := linkSiblings 0 packed.pages
  next := packed.next
  branchLevelCount := state.branchLevelCount + 1

theorem buildBranchLevel_ok_iff :
    buildBranchLevel request state = .ok state' ↔ ∃ packed, packCells (state.packing request)
          (state.current.map fenceCellForPage)
          ((state.packing request).page state.next []) (state.next + 1) = .ok packed ∧
        state' = state.raised packed := by
  rw [buildBranchLevel, bind_eq_ok_iff]
  refine exists_congr fun packed => and_congr Iff.rfl ?_
  exact ⟨fun h => (Except.ok.inj h).symm, fun h => congrArg Except.ok h.symm⟩

end Rounds

/-! ## Requests -/

theorem checkSortedCells_ok {previous : Option IndexBtreeCell}
    (h : checkSortedCells i previous cells = .ok ()) :
    ∀ c ∈ cells, c.highKey = false ∧ c.deleted = false ∧ c.childPageNumber = 0 := by
  induction cells generalizing i previous with
  | nil => exact forall_mem_nil _
  | cons c rest ih =>
    rw [checkSortedCells, indexPageError, indexPageError, guard_eq_ok_iff, guard_eq_ok_iff] at h
    obtain ⟨hfields, -, h⟩ := h
    simp only [Bool.or_eq_true, bne_iff_ne, not_or, Bool.not_eq_true, not_not] at hfields
    exact forall_mem_cons.mpr ⟨⟨hfields.1.1, hfields.1.2, hfields.2⟩, ih h⟩

/-- What the checks leave of a request. That its cells are in order the validator
finds out again. -/
structure Loadable (request : IndexBtreePhysicalBulkBuildRequest) : Prop where
  index : isTypedEngineIdentity request.indexUuid .object = true
  plain : ∀ c ∈ request.sortedCells, c.highKey = false ∧ c.deleted = false ∧ c.childPageNumber = 0

theorem checkBulkRequest_ok (h : checkBulkRequest request = .ok ()) : Loadable request := by
  rw [checkBulkRequest, indexPageError, indexPageError, indexPageError,
    indexPageError, guard_eq_ok_iff, guard_eq_ok_iff, guard_eq_ok_iff, guard_eq_ok_iff] at h
  obtain ⟨hindex, -, -, -, hcells⟩ := h
  exact ⟨by simpa using hindex, checkSortedCells_ok hcells⟩

theorem packLeaves_ok (hcells : request.sortedCells ≠ []) (h : packLeaves request = .ok state) :
    ∃ groups packed, Grouped (leafPacking request) 1 [] request.sortedCells groups packed ∧ state =
          { current := linkSiblings 0 packed.pages, next := packed.next } := by
  rw [packLeaves, bind_eq_ok_iff] at h
  obtain ⟨packed, hpacked, h⟩ := h
  obtain ⟨groups, hg⟩ := packCells_ok leafPacking_plain (.inl ⟨rfl, hcells⟩) hpacked
  exact ⟨groups, packed, hg, (Except.ok.inj h).symm⟩

/-- Cells for a load into pages that have room for two short keys, or for a short
and a long one. -/
def loadRequest (leafEntryCapacity internalEntryCapacity : UInt32)
    (sortedCells : List IndexBtreeCell) : IndexBtreePhysicalBulkBuildRequest where
  indexUuid := sampleIndex
  pageSize := 384
  leafEntryCapacity
  internalEntryCapacity
  sortedCells
  sortedOrderProofValid := true

/-- Two cells, a leaf for each. -/
def twoLeafRequest (internalEntryCapacity : UInt32) : IndexBtreePhysicalBulkBuildRequest :=
  loadRequest 1 internalEntryCapacity [sampleCell [1] 1, sampleCell [2] 2]

end ScratchBird.Btree
