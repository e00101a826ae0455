import Mathlib.Algebra.Order.BigOperators.Group.List
import ScratchBird.Proofs.BtreeScan

/-!
# Short cells leave room

A split publishes the halves of a page before the page above has taken their
fences, so a page above that cannot be stored leaves the index torn. When no cell
takes more than a third of a page this does not happen: a page that overflows by
at most two cells can always be cut into two that fit, and a new root holds its
two fences. Nothing that is reached after the first page was published refuses,
and an insertion that is refused was refused before it changed anything.
-/

namespace ScratchBird.Btree

open Lib List
open Index (Bytes)
open Storage (isTypedEngineIdentity kPageHeaderSerializedBytes)

variable {cells front back us vs : List IndexBtreeCell} {cell : IndexBtreeCell}
  {page piece left right p q c d : IndexBtreePageBody} {pageSize : UInt32}
  {limit target height : Nat} {tree tree' : IndexBtreePhysicalTree}
  {result : IndexBtreePhysicalInsertResult} {path rest : List UInt64}
  {climb : IndexBtreePageBody → IndexBtreePhysicalInsertResult →
    TreeM IndexBtreePhysicalInsertResult}
  {propagate : IndexBtreePageBody → IndexBtreePageBody → IndexBtreePhysicalInsertResult →
    TreeM IndexBtreePhysicalInsertResult}
  {internalLike : Bool} {row X Y below leaves A B : Level} {levels : List Level}
  {U old new V : List Listing} {holder root : UInt64} {e : Listing} {change : Change}
  {kind : IndexBtreePageKind}

/-! ## The size of cells -/

def IndexBtreeCell.bytes (cell : IndexBtreeCell) : Nat := kCellHeaderBytes + cell.encodedKey.length

/-- The room for cells on a page. -/
def cellCapacity (pageSize : UInt32) : Nat :=
  pageSize.toNat - kPageHeaderSerializedBytes - kIndexBtreePageBodyHeaderBytes

theorem cellsBytes_append : cellsBytes (front ++ back) = cellsBytes front + cellsBytes back := by
  rw [cellsBytes, map_append, List.sum_append]
  rfl

theorem cellsBytes_singleton : cellsBytes [cell] = cell.bytes := by
  rfl

theorem cellsBytes_of_perm (h : front.Perm back) : cellsBytes front = cellsBytes back := by
  exact (h.map _).sum_eq

theorem cellsBytes_sublist (h : front.Sublist back) : cellsBytes front ≤ cellsBytes back := by
  exact (h.map _).sum_le_sum fun _ _ => Nat.zero_le _

/-- A cut just behind a target: it passes the target by less than one cell. -/
theorem exists_cut (cells : List IndexBtreeCell) (target : Nat) (hpos : 0 < target)
    (hle : target ≤ cellsBytes cells) (hlimit : ∀ c ∈ cells, c.bytes ≤ limit) :
    ∃ front back, cells = front ++ back ∧ front ≠ [] ∧
      target ≤ cellsBytes front ∧ cellsBytes front < target + limit := by
  induction cells generalizing target with
  | nil =>
    have hzero : cellsBytes [] = 0 := rfl
    omega
  | cons c cells ih =>
    obtain ⟨hc, hlimit⟩ := forall_mem_cons.mp hlimit
    have hcons : cellsBytes (c :: cells) = c.bytes + cellsBytes cells := cellsBytes_cons c cells
    by_cases hreached : target ≤ c.bytes
    · refine ⟨[c], cells, rfl, cons_ne_nil _ _, ?_, ?_⟩
      · assumption
      · rw [cellsBytes_singleton]
        omega
    · obtain ⟨front, back, rfl, -, hge, hlt⟩ := ih (target - c.bytes) (by omega) (by omega) hlimit
      have hfront : cellsBytes (c :: front) = c.bytes + cellsBytes front := cellsBytes_cons c front
      exact ⟨c :: front, back, rfl, cons_ne_nil _ _, by omega, by omega⟩

/-- Cells that overflow a page by at most two of them can be cut into two lists
that fit. -/
theorem exists_fitting_cut {room : Nat} (hthird : 3 * limit ≤ room)
    (hlimit : ∀ c ∈ cells, c.bytes ≤ limit) (hover : room < cellsBytes cells)
    (hle : cellsBytes cells ≤ room + 2 * limit) :
    ∃ front back, cells = front ++ back ∧ front ≠ [] ∧ back ≠ [] ∧
      cellsBytes front ≤ room ∧ cellsBytes back ≤ room := by
  obtain ⟨front, back, rfl, hne, hge, hlt⟩ :=
    exists_cut cells (cellsBytes cells - room) (by omega) (by omega) hlimit
  have hsum : cellsBytes (front ++ back) = cellsBytes front + cellsBytes back := cellsBytes_append
  refine ⟨front, back, rfl, hne, ?_, by omega, by omega⟩
  rintro rfl
  have hzero : cellsBytes [] = 0 := rfl
  omega

/-! ## Pages that only lack room -/

/-- Everything the builder asks of a page but room for its cells. -/
structure Shaped (page : IndexBtreePageBody) (pageSize : UInt32) : Prop where
  index : isTypedEngineIdentity page.indexUuid .object = true
  fits : PageFits page
  header : kPageHeaderSerializedBytes + kIndexBtreePageBodyHeaderBytes < pageSize.toNat

theorem Buildable.shaped (h : Buildable page pageSize) : Shaped page pageSize :=
  ⟨h.index, h.fits, h.header⟩

theorem Buildable.cells_le (h : Buildable page pageSize) :
    cellsBytes page.cells ≤ cellCapacity pageSize := by
  have hroom := h.room
  rw [bodyBytes_eq] at hroom
  rw [cellCapacity]
  omega

theorem Shaped.buildable (h : Shaped page pageSize)
    (hroom : cellsBytes page.cells ≤ cellCapacity pageSize) : Buildable page pageSize := by
  refine ⟨h.index, h.fits, h.header, ?_⟩
  have hheader := h.header
  rw [cellCapacity] at hroom
  rw [bodyBytes_eq]
  omega

theorem Shaped.too_large (h : Shaped page pageSize)
    (hroom : cellCapacity pageSize < cellsBytes page.cells) :
    ∃ d, stagePhysicalPage page pageSize = .error d ∧ d.diagnosticCode = bodyTooLarge := by
  have hheader := h.header
  have hbody : pageSize.toNat - kPageHeaderSerializedBytes < bodyBytes page.cells := by
    rw [cellCapacity] at hroom
    rw [bodyBytes_eq]
    omega
  rw [stagePhysicalPage, buildIndexBtreePageBody, if_neg (by omega), h.index,
    validatePhysicalPageBody_ok_iff.mpr h.fits]
  refine ⟨makeIndexBtreePageDiagnostic bodyTooLarge "storage.index_btree_page.body_too_large"
    (toString (bodyBytes page.cells)), ?_, rfl⟩
  rw [if_pos hbody]
  rfl

/-! ## Steps that go through -/

/-- Such a page is staged, or refused for its size. -/
theorem Shaped.staged (h : Shaped page pageSize) :
    Buildable page pageSize ∧ stagePhysicalPage page pageSize = .ok (page.laidOut pageSize) ∨
      cellCapacity pageSize < cellsBytes page.cells ∧
        ∃ d, stagePhysicalPage page pageSize = .error d ∧ d.diagnosticCode = bodyTooLarge := by
  by_cases hroom : cellsBytes page.cells ≤ cellCapacity pageSize
  · have hb := h.buildable hroom
    exact .inl ⟨hb, stagePhysicalPage_ok_iff.mpr ⟨hb, rfl⟩⟩
  · exact .inr ⟨Nat.lt_of_not_le hroom, h.too_large (Nat.lt_of_not_le hroom)⟩

theorem storeParent_succeeds (hlive : ∀ c ∈ page.cells, c.deleted = false)
    (hshape : Shaped page tree.pageSize) (hstore : Buildable page tree.pageSize →
      Succeeds (climb page result) (store tree page))
    (hsplit : cellCapacity tree.pageSize < cellsBytes page.cells →
      Succeeds (splitInternalPage path page page.cells result propagate) tree) :
    Succeeds (storeParent path page result climb propagate) tree := by
  refine Returns.bind (returns_get.mpr ⟨rfl, rfl⟩) ?_
  obtain ⟨hb, hstage⟩ | ⟨hover, d, hd, hcode⟩ := hshape.staged
  · rw [hstage]
    exact returns_publish.bind (hstore hb)
  · simp only [hd]
    rw [if_neg (not_not.mpr hcode), hasDeletedCells_eq_false_iff.mpr hlive]
    exact hsplit hover

theorem splitInternalPage_succeeds (hasc : Ascending cells)
    (hlength : 2 ≤ cells.length) (hinternal : isInternalLike page = true)
    (hroot : page.pageKind = .root → Succeeds (splitInternalRoot page cells result) tree)
    (hinner : page.pageKind ≠ .root → path.head? = some page.pageNumber ∧
      Succeeds (splitInternalNonRoot page cells result propagate) tree) :
    Succeeds (splitInternalPage path page cells result propagate) tree := by
  rw [splitInternalPage, sortCells_of_ascending hasc, if_neg]
  · split
    · next hkind => exact hroot hkind
    · next hkind =>
      obtain ⟨hpath, h⟩ := hinner hkind
      rw [if_neg (not_not.mpr hpath)]
      exact h
  · rw [hinternal]
    simp
    omega

/-! ## Pages made from pages -/

theorem fence_fits (hnumber : page.pageNumber ≠ 0)
    (hcells : ∀ c ∈ page.cells, CellFits internalLike c)
    (hlive : liveCells page ≠ []) : CellFits true (fenceCellForPage page) := by
  obtain ⟨front, c, hlast⟩ := (eq_nil_or_concat' (liveCells page)).resolve_left hlive
  have hfence : fenceCellForPage page =
      { c with childPageNumber := page.pageNumber, highKey := true, deleted := false } := by
    rw [fenceCellForPage, lastLiveCell_eq, hlast, getLast?_concat]
    rfl
  have hc : c ∈ liveCells page := by
    rw [hlast]
    exact mem_append_right _ mem_cons_self
  have hfits := hcells c (mem_filter.mp hc).1
  rw [hfence]
  refine ⟨hfits.key, hfits.row, hfits.version, rfl, ?_⟩
  simp [hnumber]

theorem fence_bytes (P : Nat → Prop) (hcells : ∀ c ∈ liveCells page, P c.bytes)
    (hlive : liveCells page ≠ []) : P (fenceCellForPage page).bytes := by
  obtain ⟨front, c, hlast⟩ := (eq_nil_or_concat' (liveCells page)).resolve_left hlive
  rw [IndexBtreeCell.bytes, fence_key hlast]
  refine hcells c ?_
  rw [hlast]
  exact mem_append_right _ mem_cons_self

/-- A page that takes over some of the cells of another. -/
theorem Shaped.part (h : Shaped page pageSize)
    (hindex : isTypedEngineIdentity piece.indexUuid .object = true)
    (hnumber : piece.pageNumber ≠ 0) (hkind : isKnownPageKind piece.pageKind = true)
    (hinternal : isInternalLike piece = isInternalLike page)
    (hcells : piece.cells.Sublist page.cells) : Shaped piece pageSize := by
  refine ⟨hindex, ⟨hnumber, hkind, ?_, h.fits.ordered.sublist hcells⟩, h.header⟩
  intro c hc
  rw [hinternal]
  exact h.fits.cells c (hcells.subset hc)

/-- A stored page fits without its deleted cells. -/
theorem Buildable.compacted (h : Buildable page pageSize) :
    Buildable (removeDeletedCells (page.settled pageSize)) pageSize := by
  have hcells : (removeDeletedCells (page.settled pageSize)).cells.Sublist page.cells :=
    List.filter_sublist
  refine Shaped.buildable (h.shaped.part ?_ ?_ ?_ rfl hcells)
    (Nat.le_trans (cellsBytes_sublist hcells) h.cells_le)
  exacts [h.index, h.fits.number, h.fits.kind]

/-- A new root has room for two short fences. -/
theorem raisedOver_buildable (h : Shaped page pageSize)
    (hkind : page.pageKind = .root) (hlevel : page.treeLevel.toNat + 1 < 2 ^ 16)
    (hlt : (fenceCellForPage left).locator < (fenceCellForPage right).locator)
    (hl : CellFits true (fenceCellForPage left) ∧ (fenceCellForPage left).bytes ≤ limit)
    (hr : CellFits true (fenceCellForPage right) ∧ (fenceCellForPage right).bytes ≤ limit)
    (hroom : 2 * limit ≤ cellCapacity pageSize) :
    Buildable (page.raisedOver left right) pageSize := by
  have hcells := @raisedOver_cells page left right hlt
  have hinternal : isInternalLike (page.raisedOver left right) = true := by
    have hpos : 0 < page.treeLevel + 1 := by
      have hone : (1 : UInt16).toNat = 1 := rfl
      have hzero : (0 : UInt16).toNat = 0 := rfl
      rw [UInt16.lt_iff_toNat_lt, UInt16.toNat_add]
      omega
    rw [isInternalLike]
    simp [IndexBtreePageBody.raisedOver, hkind, hpos]
  refine Shaped.buildable ⟨h.index, ⟨h.fits.number, h.fits.kind, ?_, ?_⟩, h.header⟩ ?_
  · rw [hcells, hinternal]
    exact forall_mem_cons.mpr ⟨hl.1, forall_mem_singleton.mpr hr.1⟩
  · rw [hcells]
    exact List.pairwise_pair.mpr (le_of_lt hlt)
  · have hsum : cellsBytes [fenceCellForPage left, fenceCellForPage right] =
        (fenceCellForPage left).bytes + (fenceCellForPage right).bytes := by
      rw [← singleton_append, cellsBytes_append, cellsBytes_singleton, cellsBytes_singleton]
    rw [hcells]
    omega

section

variable (hf : Focus row levels U old V path X p Y us vs rest)
  (h : Stale tree height (row :: levels) U old new V holder path)
include hf h

theorem Focus.internal (hpos : 0 < height) : isInternalLike p = true :=
  isInternalLike_of_level h.above.2.1 hpos hf.mem

/-- A page with its fences brought up to date lacks at most room. -/
theorem Focus.shaped (hpos : 0 < height) (hnew : ∀ e ∈ new, CellFits true e.1) :
    Shaped (p.refenced tree.pageSize us new vs) tree.pageSize := by
  have hb := (hf.stored h).built
  have hinternal := hf.internal h hpos
  refine ⟨hb.index, ⟨hb.fits.number, hb.fits.kind, hf.forall_cells hb.fits.cells ?_, ?_⟩, hb.header⟩
  · show ∀ e ∈ new, CellFits (isInternalLike p) e.1
    rw [hinternal]
    exact hnew
  · exact (hf.ascending h).imp fun hlt => le_of_lt hlt

end

theorem Change.entries_bytes (h : ∀ e ∈ change.entries holder, e.1.bytes ≤ limit) :
    cellsBytes ((change.entries holder).map Prod.fst) ≤ 2 * limit := by
  cases change with
  | fence child =>
    have hchild : (fenceCellForPage child).bytes ≤ limit := h _ mem_cons_self
    show cellsBytes [fenceCellForPage child] ≤ _
    rw [cellsBytes_singleton]
    omega
  | split left right =>
    have hleft : (fenceCellForPage left).bytes ≤ limit := h _ mem_cons_self
    have hright : (fenceCellForPage right).bytes ≤ limit := h _ (mem_cons_of_mem _ mem_cons_self)
    show cellsBytes ([fenceCellForPage left] ++ [fenceCellForPage right]) ≤ _
    rw [cellsBytes_append, cellsBytes_singleton, cellsBytes_singleton]
    omega

/-- A page overflows by at most two cells. -/
theorem Focus.overflow (hf : Focus row levels U [e] V path X p Y us vs rest)
    (h : Stale tree height (row :: levels) U [e] (change.entries holder) V holder path)
    (hbytes : ∀ e ∈ change.entries holder, e.1.bytes ≤ limit) :
    cellsBytes (us ++ ((change.entries holder).map Prod.fst ++ vs)) ≤
      cellCapacity tree.pageSize + 2 * limit := by
  have hold := (hf.stored h).built.cells_le
  have hnew := Change.entries_bytes hbytes
  rw [hf.cells, cellsBytes_append, cellsBytes_append] at hold
  rw [cellsBytes_append, cellsBytes_append]
  omega

/-! ## Up to the root without a refusal -/

/-- Short cells in the levels above a row, and numbers and levels left above. -/
structure Roomy (tree : IndexBtreePhysicalTree) (limit height : Nat)
    (levels : List Level) : Prop where
  third : 3 * limit ≤ cellCapacity tree.pageSize
  cells : ∀ p ∈ levels.flatten, ∀ c ∈ p.cells, c.bytes ≤ limit
  counting : tree.nextPageNumber ≠ 0
  numbers : tree.nextPageNumber.toNat + levels.length + 1 < 2 ^ 64
  above : 0 < height
  levels : height + levels.length < 2 ^ 16

theorem Roomy.bump_toNat (h : Roomy tree limit height levels) :
    (bump tree).nextPageNumber.toNat = tree.nextPageNumber.toNat + 1 := by
  have hnumbers := h.numbers
  have hone : (1 : UInt64).toNat = 1 := rfl
  show (tree.nextPageNumber + 1).toNat = _
  rw [UInt64.toNat_add]
  omega

theorem Roomy.bump_ne_zero (h : Roomy tree limit height levels) :
    (bump tree).nextPageNumber ≠ 0 := by
  have hzero : (0 : UInt64).toNat = 0 := rfl
  rw [ne_eq, ← UInt64.toNat_inj, h.bump_toNat]
  omega

theorem Roomy.next (h : Roomy tree limit height (row :: levels))
    (hsize : tree'.pageSize = tree.pageSize) (hnext : tree'.nextPageNumber = tree.nextPageNumber ∨
      tree'.nextPageNumber = (bump tree).nextPageNumber) :
    Roomy tree' limit (height + 1) levels := by
  have hnumbers := h.numbers
  have hlevels := h.levels
  rw [length_cons] at hnumbers hlevels
  refine ⟨hsize ▸ h.third, ?_, ?_, ?_, by omega, by omega⟩
  · intro p hp
    exact h.cells p (by rw [flatten_cons]; exact mem_append_right _ hp)
  · rcases hnext with hnext | hnext
    · rw [hnext]
      exact h.counting
    · rw [hnext]
      exact h.bump_ne_zero
  · rcases hnext with hnext | hnext
    · rw [hnext]
      omega
    · rw [hnext, h.bump_toNat]
      omega

/-- A number more than needed may be taken. -/
theorem Roomy.taken (h : Roomy tree limit height levels)
    (hspare : tree.nextPageNumber.toNat + levels.length + 2 < 2 ^ 64)
    (hsize : tree'.pageSize = tree.pageSize)
    (hnext : tree'.nextPageNumber = (bump tree).nextPageNumber) :
    Roomy tree' limit height levels := by
  refine ⟨hsize ▸ h.third, h.cells, ?_, ?_, h.above, h.levels⟩
  · rw [hnext]
    exact h.bump_ne_zero
  · rw [hnext, h.bump_toNat]
    omega

/-- What the entries of a change ask of the page that takes them. -/
def Change.Fitting (change : Change) (holder : UInt64) (limit : Nat) : Prop :=
  ∀ e ∈ change.entries holder, CellFits true e.1 ∧ e.1.bytes ≤ limit

/-- A page brought up to date: it lacks at most room, and by two cells. -/
structure Refit (tree : IndexBtreePhysicalTree) (limit : Nat)
    (internalLike : Bool) (page : IndexBtreePageBody) : Prop where
  shape : Shaped page tree.pageSize
  internal : isInternalLike page = internalLike
  live : ∀ c ∈ page.cells, c.deleted = false
  ascending : Ascending page.cells
  filled : page.cells ≠ []
  short : ∀ c ∈ page.cells, c.bytes ≤ limit
  overflow : cellsBytes page.cells ≤ cellCapacity tree.pageSize + 2 * limit

theorem Pending.refit (h : Pending tree height below (row :: levels) U e (change.entries holder) V
      holder path)
    (hf : Focus row levels U [e] V path X p Y us vs rest)
    (hroom : Roomy tree limit height (row :: levels)) (hfit : change.Fitting holder limit) :
    Refit tree limit true (p.refenced tree.pageSize us (change.entries holder) vs) where
  shape := hf.shaped h.stale hroom.above fun e he => (hfit e he).1
  internal := hf.internal h.stale hroom.above
  live := hf.live h.stale
  ascending := hf.ascending h.stale
  filled := Focus.refenced_ne_nil h.stale
  short := hf.forall_cells (hroom.cells p (mem_append_left _ hf.mem)) fun e he => (hfit e he).2
  overflow := hf.overflow h.stale fun e he => (hfit e he).2

/-- Cells taken from such a page give a fence the page above can take. -/
theorem Refit.fence (h : Refit tree limit internalLike q) (hnumber : p.pageNumber ≠ 0)
    (hcells : p.cells.Sublist q.cells) (hne : p.cells ≠ []) :
    CellFits true (fenceCellForPage p) ∧ (fenceCellForPage p).bytes ≤ limit := by
  have hlive : liveCells p = p.cells :=
    liveCells_of_undeleted fun c hc => h.live c (hcells.subset hc)
  refine ⟨fence_fits hnumber (fun c hc => h.shape.fits.cells c
    (hcells.subset hc)) (hlive ▸ hne), fence_bytes (· ≤ limit) ?_ (hlive ▸ hne)⟩
  rw [hlive]
  exact fun c hc => h.short c (hcells.subset hc)

/-- Two pages made of the front and the back of its cells can be built. -/
theorem Refit.cut (h : Refit tree limit internalLike q)
    (hthird : 3 * limit ≤ cellCapacity tree.pageSize)
    (hover : cellCapacity tree.pageSize < cellsBytes q.cells)
    (hleft : ∀ cells, cells.Sublist q.cells → Shaped { left with cells := cells } tree.pageSize)
    (hright : ∀ cells, cells.Sublist q.cells → Shaped { right with cells := cells } tree.pageSize) :
    ∃ front back, Cut left right q.cells tree.pageSize front back := by
  obtain ⟨front, back, hcells, hfront, hback, hfrontRoom, hbackRoom⟩ :=
    exists_fitting_cut hthird h.short hover h.overflow
  refine exists_cut_of_buildable hcells hfront hback
    ((hleft front ?_).buildable hfrontRoom) ((hright back ?_).buildable hbackRoom)
  · rw [hcells]
    exact List.sublist_append_left _ _
  · rw [hcells]
    exact List.sublist_append_right _ _

/-- The kind of the halves of such a page. -/
abbrev halfKind (internalLike : Bool) : IndexBtreePageKind :=
  bif internalLike then .internal else .leaf

section

variable (h : Refit tree limit internalLike q) (hroom : Roomy tree limit height levels)
  (hindex : isTypedEngineIdentity tree.indexUuid .object = true)
  (hover : cellCapacity tree.pageSize < cellsBytes q.cells)
include h hroom hindex hover

theorem Refit.halfCut :
    ∃ front back, HalfCut tree q (halfKind internalLike) q.cells front back := by
  refine h.cut hroom.third hover (fun cells hsub => ?_) (fun cells hsub => ?_)
  · exact h.shape.part h.shape.index h.shape.fits.number h.shape.fits.kind rfl hsub
  · cases internalLike <;>
      exact h.shape.part hindex hroom.counting rfl h.internal.symm hsub

theorem Refit.rootCut :
    ∃ front back, RootCut tree q (halfKind internalLike) q.cells front back := by
  refine h.cut hroom.third hover (fun cells hsub => ?_) (fun cells hsub => ?_)
  · cases internalLike <;>
      exact h.shape.part hindex hroom.counting rfl h.internal.symm hsub
  · cases internalLike <;>
      exact h.shape.part hindex hroom.bump_ne_zero rfl h.internal.symm hsub

end

/-- The new root holds the fences of both halves. -/
theorem Refit.raised (h : Refit tree limit internalLike q) (hroom : Roomy tree limit height levels)
    (hcut : RootCut tree q kind q.cells front back) (hkind : q.pageKind = .root)
    (hlevel : q.treeLevel.toNat + 1 < 2 ^ 16) (hleft : left = q.newLeft tree kind front)
    (hright : right = q.newRight tree kind back) :
    ∀ b ∈ [left, right, q.raisedOver left right], Buildable b tree.pageSize := by
  obtain ⟨hfront, hback, hl, hr⟩ := hcut.sound
  obtain ⟨hfrontSub, hbackSub⟩ := hcut.sublists
  subst hleft hright
  refine forall_mem_cons.mpr ⟨hl, forall_mem_cons.mpr ⟨hr, forall_mem_singleton.mpr ?_⟩⟩
  refine raisedOver_buildable h.shape hkind hlevel ?_ (h.fence hroom.counting hfrontSub hfront)
    (h.fence hroom.bump_ne_zero hbackSub hback)
    (Nat.le_trans (Nat.mul_le_mul_right limit (by decide)) hroom.third)
  have hasc := @ascending_fences_of_undeleted
    [q.newLeft tree kind front, q.newRight tree kind back] ?_ ?_ ?_
  · exact (pairwise_cons.mp hasc).1 _ (by simp)
  · have hall := h.ascending
    rw [hcut.parts] at hall
    rw [flatMap_cons, flatMap_singleton]
    exact hall
  · exact forall_mem_cons.mpr ⟨hfront, forall_mem_singleton.mpr hback⟩
  · exact forall_mem_cons.mpr ⟨fun x hx => h.live x (hfrontSub.subset hx),
      forall_mem_singleton.mpr fun x hx => h.live x (hbackSub.subset hx)⟩

/-- The root is split, and the new root stored above the halves. -/
theorem Pending.root_succeeds
    (h : Pending tree height below [row] U e (change.entries holder) V holder path)
    (hf : Focus row [] U [e] V path X p Y us vs rest) (hholder : p.pageNumber = holder)
    (hroom : Roomy tree limit height [row]) (hrefit : Refit tree limit true q)
    (hq : q = p.refenced tree.pageSize us (change.entries holder) vs)
    (hover : cellCapacity tree.pageSize < cellsBytes q.cells) :
    Succeeds (splitInternalRoot q q.cells result) tree := by
  have hkind : q.pageKind = .root := by
    rw [hq]
    exact (hf.root_iff h.stale).mpr rfl
  have hlevel : q.treeLevel.toNat + 1 < 2 ^ 16 := by
    have hlevels := hroom.levels
    rw [← h.stale.above.2.1.level p hf.mem] at hlevels
    rw [hq]
    exact hlevels
  obtain ⟨front, back, hcut⟩ := hrefit.rootCut hroom h.sound.index hover
  obtain ⟨_, _, _, hreturns, -⟩ := h.root_split hf hholder hq hcut rfl rfl
  exact ⟨_, _, hreturns.mpr ⟨hrefit.raised hroom hcut hkind hlevel rfl rfl, rfl, rfl⟩⟩

/-- Both halves have fences the page above can take. -/
theorem Refit.halves_fitting (h : Refit tree limit internalLike q)
    (hroom : Roomy tree limit height levels) (hcut : HalfCut tree q kind q.cells front back) :
    (Change.split (q.keptHalf tree front) (q.nextHalf tree kind back)).Fitting holder
        limit := by
  obtain ⟨hfront, hback, -⟩ := hcut.sound
  obtain ⟨hfrontSub, hbackSub⟩ := hcut.sublists
  exact forall_mem_cons.mpr ⟨h.fence h.shape.fits.number hfrontSub hfront,
    forall_mem_singleton.mpr (h.fence hroom.counting hbackSub hback)⟩

/-- It takes two short cells to overflow a page. -/
theorem Refit.two_cells (h : Refit tree limit internalLike q)
    (hroom : Roomy tree limit height levels)
    (hover : cellCapacity tree.pageSize < cellsBytes q.cells) : 2 ≤ q.cells.length := by
  obtain ⟨front, back, hcells, hfront, hback, -⟩ :=
    exists_fitting_cut hroom.third h.short hover h.overflow
  have hpos := length_pos_iff.mpr hfront
  have hpos' := length_pos_iff.mpr hback
  rw [hcells, length_append]
  omega

/-- A change of short entries is carried to the root without a refusal. The
induction is on the levels above the row whose entry has changed. -/
theorem carry_succeeds (change : Change) (holder : UInt64)
    (h : Pending tree height below levels U e (change.entries holder) V holder path)
    (hnumber : e.1.childPageNumber = change.number)
    (hfence : levels = [] → ∃ child, change = .fence child)
    (hfit : change.Fitting holder limit) (hroom : Roomy tree limit height levels) :
    Succeeds (change.carry path result) tree := by
  induction levels generalizing change holder tree height below U V e path result with
  | nil =>
    obtain ⟨child, rfl⟩ := hfence rfl
    have hpath : path = [] := h.stale.path
    subst hpath
    exact succeeds_pure
  | cons row levels ih =>
    obtain ⟨X, p, Y, us, vs, rest, hf, hholder⟩ := h.stale.focus
    have hrefit := h.refit hf hroom hfit
    suffices hstore : Succeeds (storeParent path
        (p.refenced tree.pageSize us (change.entries holder) vs) result
        (updateParentFence rest) (propagateSplit rest)) tree by
      obtain ⟨r, t, hr⟩ := hstore
      exact ⟨r, t, (carry_cons h.stale hf hnumber).mpr hr⟩
    refine storeParent_succeeds hrefit.live hrefit.shape ?_ ?_
    · intro hb
      obtain ⟨-, hpending⟩ := h.in_place hf hholder rfl hb
      refine ih (.fence (p.refenced tree.pageSize us (change.entries holder) vs))
        p.parentPageNumber hpending rfl (fun _ => ⟨_, rfl⟩) ?_ (hroom.next rfl (.inl rfl))
      exact forall_mem_singleton.mpr (hrefit.fence
        hrefit.shape.fits.number (List.Sublist.refl _) hrefit.filled)
    · intro hover
      refine splitInternalPage_succeeds hrefit.ascending (hrefit.two_cells hroom hover)
        hrefit.internal ?_ ?_
      · intro hroot
        obtain rfl := List.isEmpty_iff.mp ((hf.root_iff h.stale).mp hroot)
        exact h.root_succeeds hf hholder hroom hrefit rfl hover
      · intro hroot
        have htop := Bool.eq_false_iff.mpr (mt (hf.root_iff h.stale).mpr hroot)
        refine ⟨hf.path ▸ rfl, ?_⟩
        obtain ⟨front, back, hcut⟩ := hrefit.halfCut hroom h.sound.index hover
        obtain ⟨bodies, _, _, hreturns, -, hpending⟩ :=
          h.inner_split hf hholder rfl htop hcut rfl rfl
        obtain ⟨r, t, hr⟩ := ih (.split _ _) p.parentPageNumber hpending rfl
          (fun hnil => absurd hnil (List.isEmpty_eq_false_iff.mp htop))
          (hrefit.halves_fitting hroom hcut)
          (hroom.next storeAll_pageSize (.inr storeAll_nextPageNumber))
        exact ⟨r, t, hreturns.mpr hr⟩

/-! ## Leaves -/

section Fences

variable (P : Nat → Prop)

/-- Fences are copies of live cells, so they are as long as those. The induction
is on the levels. -/
theorem Above.cells_bytes :
    ∀ {height : Nat} {row : Level}, Above root height (row.map (·.up)) levels →
      (∀ p ∈ row, liveCells p ≠ []) → (∀ p ∈ row, ∀ c ∈ liveCells p, P c.bytes) →
      ∀ p ∈ levels.flatten, ∀ c ∈ p.cells, P c.bytes := by
  induction levels with
  | nil =>
    intro height row _ _ _ p hp
    cases hp
  | cons upper levels ih =>
    intro height row h hfilled hshort
    obtain ⟨hdown, hfits, habove⟩ := h
    have hcells : upper.flatMap (·.cells) = row.map fenceCellForPage := by
      rw [← map_fst_down, hdown, map_up_fst]
    have hover : ∀ p ∈ upper, ∀ c ∈ p.cells, P c.bytes := by
      intro p hp c hc
      have hmem : c ∈ upper.flatMap (·.cells) := List.mem_flatMap_of_mem hp hc
      rw [hcells] at hmem
      obtain ⟨q, hq, rfl⟩ := mem_map.mp hmem
      exact fence_bytes P (hshort q hq) (hfilled q hq)
    intro p hp
    rcases mem_append.mp hp with hp | hp
    · exact hover p hp
    · refine ih habove ?_ ?_ p hp
      · intro q hq
        rw [liveCells_of_undeleted (hfits.live q hq)]
        exact hfits.fences q hq
      · intro q hq
        rw [liveCells_of_undeleted (hfits.live q hq)]
        exact hover q hq

end Fences

section Inserting

variable {free : UInt32}

section

variable (h : Placed tree leaves levels A c B cell path)
  (hd : d = c.refilled free (insertCellSorted c.cells cell)) (hfits : CellFits false cell)
include h hd hfits

/-- A leaf with the new cell lacks at most room. -/
theorem Placed.shaped : Shaped d tree.pageSize := by
  have hb := (h.arranged.stored h.mem).built
  have hinternal : isInternalLike c = false := h.arranged.leaves.not_internal h.mem
  have hcells := hb.fits.cells
  rw [hinternal] at hcells
  rw [hd]
  refine ⟨hb.index, ⟨hb.fits.number, hb.fits.kind, ?_,
    insertCellSorted_ordered hb.fits.ordered⟩, hb.header⟩
  intro x hx
  show CellFits (isInternalLike c) x
  rw [hinternal]
  rcases mem_cons.mp (insertCellSorted_perm.mem_iff.mp hx) with rfl | hx
  · exact hfits
  · exact hcells x hx

theorem Placed.refit (hcell : cell.bytes ≤ limit)
    (hshort : ∀ m ∈ leaves.flatMap liveCells, m.bytes ≤ limit)
    (hlive : ∀ x ∈ d.cells, x.deleted = false) : Refit tree limit false d := by
  have hperm : d.cells.Perm (cell :: c.cells) := by
    rw [hd]
    exact insertCellSorted_perm
  have hb := (h.arranged.stored h.mem).built
  refine ⟨h.shaped hd hfits, ?_, hlive, ?_, ?_, ?_, ?_⟩
  · have hinternal : isInternalLike c = false := h.arranged.leaves.not_internal h.mem
    rw [hd]
    exact hinternal
  · have hasc := h.ascending hd
    rw [flatMap_append] at hasc
    rw [← liveCells_of_undeleted hlive]
    exact (pairwise_append.mp (pairwise_append.mp hasc).2.1).1
  · intro hnil
    rw [hnil] at hperm
    exact absurd hperm.symm.eq_nil (by simp)
  · intro x hx
    have hxlive := hlive x hx
    rcases mem_cons.mp (hperm.mem_iff.mp hx) with rfl | hmem
    · exact hcell
    · refine hshort x (mem_flatMap.mpr ⟨c, h.mem, ?_⟩)
      exact mem_filter.mpr ⟨hmem, by rw [hxlive]; rfl⟩
  · have hroom := hb.cells_le
    have hcons : cellsBytes (cell :: c.cells) =
        cell.bytes + cellsBytes c.cells := cellsBytes_cons cell c.cells
    rw [cellsBytes_of_perm hperm]
    omega

end

/-- The root is the only leaf, and both halves get a fence in the new root. -/
theorem Refit.root_split_succeeds (hrefit : Refit tree limit false d)
    (hroom : Roomy tree limit 1 []) (hindex : isTypedEngineIdentity tree.indexUuid .object = true)
    (hlevel : d.treeLevel = 0) (hkind : d.pageKind = .root)
    (hover : cellCapacity tree.pageSize < cellsBytes d.cells) :
    Succeeds (splitRootLeaf d d.cells) tree := by
  obtain ⟨front, back, hcut⟩ := hrefit.rootCut hroom hindex hover
  have hlow : d.treeLevel.toNat + 1 < 2 ^ 16 := by
    rw [hlevel]
    decide
  exact ⟨_, _, (returns_splitRootLeaf hcut hlevel rfl rfl).mpr
    ⟨hrefit.raised hroom hcut hkind hlow rfl rfl, rfl, rfl⟩⟩

theorem Placed.halves_succeed (h : Placed tree leaves (row :: levels) A c B cell path)
    (hd : d = c.refilled free (insertCellSorted c.cells cell)) (hrefit : Refit tree limit false d)
    (hroom : Roomy tree limit 1 (row :: levels))
    (hspare : tree.nextPageNumber.toNat + (row :: levels).length + 2 < 2 ^ 64)
    (hover : cellCapacity tree.pageSize < cellsBytes d.cells) :
    Succeeds (splitNonRootLeaf path d d.cells) tree := by
  obtain ⟨hlevel, -, hlink, hstored⟩ := h.refilled hd
  obtain ⟨front, back, hcut⟩ := hrefit.halfCut hroom h.arranged.tower.sound.index hover
  obtain ⟨hfront, hback, -⟩ := hcut.sound
  obtain ⟨hfrontSub, hbackSub⟩ := hcut.sublists
  have hsplit : insertCellSorted c.cells cell = front ++ back := by
    rw [← hcut.parts, hd]
    rfl
  have hnumber : c.pageNumber = d.pageNumber := by
    rw [hd]
    rfl
  have hleftLive : liveCells (d.keptHalf tree front) ≠ [] := by
    rw [liveCells_of_undeleted fun x hx => hrefit.live x (hfrontSub.subset hx)]
    exact hfront
  have hrightLive : liveCells (d.nextHalf tree .leaf back) ≠ [] := by
    rw [liveCells_of_undeleted fun x hx => hrefit.live x (hbackSub.subset hx)]
    exact hback
  obtain ⟨-, -, hpending⟩ := h.pending_halves hd rfl hsplit rfl rfl hleftLive
    hrightLive (buildable_halves hcut hstored)
  obtain ⟨r, t, hr⟩ := carry_succeeds (.split _ _) _ hpending hnumber
    (fun hnil => absurd hnil (cons_ne_nil _ _)) (hrefit.halves_fitting hroom hcut)
    (hroom.taken hspare storeAll_pageSize storeAll_nextPageNumber)
  exact ⟨r, t, (returns_splitNonRootLeaf hcut hlevel hlink hstored).mpr hr⟩

section

variable (h : Placed tree leaves levels A c B cell path)
  (hd : d = c.refilled free (insertCellSorted c.cells cell))
include h hd

theorem Placed.split_succeeds
    (hrefit : Refit tree limit false d) (hroom : Roomy tree limit 1 levels)
    (hspare : tree.nextPageNumber.toNat + levels.length + 2 < 2 ^ 64)
    (hover : cellCapacity tree.pageSize < cellsBytes d.cells) :
    Succeeds (splitLeaf path d) tree := by
  have hindex := h.arranged.tower.sound.index
  obtain ⟨hlevel, hkind, -, -⟩ := h.refilled hd
  rw [splitLeaf, if_neg (Nat.not_lt.mpr (hrefit.two_cells hroom hover))]
  cases levels with
  | nil =>
    rw [if_pos ⟨hkind, hlevel⟩]
    exact hrefit.root_split_succeeds hroom hindex hlevel hkind hover
  | cons row levels =>
    have hnot : ¬(d.pageKind = .root ∧ d.treeLevel = 0) := by
      rw [hkind]
      simp
    rw [if_neg hnot]
    exact h.halves_succeed hd hrefit hroom hspare hover

theorem Placed.in_place_succeeds (hlive : cell.deleted = false) (hcell : cell.bytes ≤ limit)
    (hshort : ∀ m ∈ leaves.flatMap liveCells, m.bytes ≤ limit)
    (hroom : Roomy tree limit 1 levels) (hb : Buildable d tree.pageSize) :
    Succeeds (updateParentFence path d result) (store tree d) := by
  have hperm := live_perm hd
  have hne : liveCells d ≠ [] := by
    have hadded : cell ∈ added cell := mem_filter.mpr ⟨mem_singleton_self cell, by rw [hlive]; rfl⟩
    exact List.ne_nil_of_mem (hperm.mem_iff.mpr (mem_append_left _ hadded))
  have hdshort : ∀ x ∈ liveCells d, x.bytes ≤ limit := by
    intro x hx
    rcases mem_append.mp (hperm.mem_iff.mp hx) with hx | hx
    · rw [(mem_added hx).1]
      exact hcell
    · exact hshort x (mem_flatMap.mpr ⟨c, h.mem, hx⟩)
  have hnumber : c.pageNumber = d.pageNumber := by
    rw [hd]
    rfl
  have hfitting : (Change.fence d).Fitting c.parentPageNumber limit :=
    forall_mem_singleton.mpr ⟨fence_fits hb.fits.number hb.fits.cells hne,
      fence_bytes (· ≤ limit) hdshort hne⟩
  exact carry_succeeds (.fence d) _ (h.pending hd hb) hnumber (fun _ => ⟨d, rfl⟩) hfitting
    { hroom with }

end

/-- A leaf without deleted cells that does not fit with the new one. -/
theorem Placed.too_large_succeeds (h : Placed tree leaves levels A c B cell path)
    (hd : d = c.refilled free (insertCellSorted c.cells cell))
    (hundeleted : ∀ x ∈ c.cells, x.deleted = false)
    (hlive : cell.deleted = false) (hfits : CellFits false cell) (hcell : cell.bytes ≤ limit)
    (hshort : ∀ m ∈ leaves.flatMap liveCells, m.bytes ≤ limit) (hroom : Roomy tree limit 1 levels)
    (hspare : tree.nextPageNumber.toNat + levels.length + 2 < 2 ^ 64)
    (hover : cellCapacity tree.pageSize < cellsBytes d.cells) :
    Succeeds (splitLeaf path d) tree := by
  refine h.split_succeeds hd (h.refit hd hfits hcell hshort ?_) hroom hspare hover
  intro x hx
  rw [hd] at hx
  rcases mem_cons.mp (insertCellSorted_perm.mem_iff.mp hx) with rfl | hx
  · exact hlive
  · exact hundeleted x hx

/-- A leaf takes a short live cell, in place, compacted or split. -/
theorem insertIntoLeaf_succeeds (h : Placed tree leaves levels A c B cell path)
    (hlive : cell.deleted = false) (hfits : CellFits false cell) (hcell : cell.bytes ≤ limit)
    (hshort : ∀ m ∈ leaves.flatMap liveCells, m.bytes ≤ limit) (hroom : Roomy tree limit 1 levels)
    (hspare : tree.nextPageNumber.toNat + levels.length + 2 < 2 ^ 64) :
    Succeeds (insertIntoLeaf path (c.settled tree.pageSize) cell) tree := by
  have hbuilt := (h.arranged.stored h.mem).built
  have hshape : Shaped (withCell (c.settled tree.pageSize) cell) tree.pageSize := h.shaped rfl hfits
  refine (returns_get.mpr ⟨rfl, rfl⟩).bind ?_
  obtain ⟨hb, hstage⟩ | ⟨hover, diagnostic, hstage, hcode⟩ := hshape.staged
  · rw [hstage]
    exact returns_publish.bind (h.in_place_succeeds rfl hlive hcell hshort hroom hb)
  · simp only [hstage]
    rw [if_neg (not_not.mpr hcode)]
    split
    · -- the deleted cells go first
      generalize hq : removeDeletedCells (c.settled tree.pageSize) = q
      have hb : Buildable q tree.pageSize := hq ▸ hbuilt.compacted
      have hundeleted : ∀ x ∈ q.cells, x.deleted = false := by
        rw [← hq]
        intro x hx
        simpa using (mem_filter.mp hx).2
      have hcompact := h.compacted hq.symm hb
      obtain ⟨-, hall⟩ := h.arranged.compacted h.row hq.symm
        (by rw [← hq]; exact liveCells_refilled_live) hb
      rw [← hall] at hshort
      have hroom' : Roomy (store tree q) limit 1 levels := { hroom with }
      rw [insertCompacted, hq]
      refine (returns_stagePage.mpr ⟨⟨hb, rfl⟩, rfl⟩).bind ?_
      refine returns_publish.bind ?_
      refine (returns_get.mpr ⟨rfl, rfl⟩).bind ?_
      have hshape' : Shaped (withCell q cell) (store tree q).pageSize := hcompact.shaped rfl hfits
      obtain ⟨hb', hstage'⟩ | ⟨hover', diagnostic', hstage', hcode'⟩ := hshape'.staged
      · rw [hstage']
        exact returns_publish.bind (hcompact.in_place_succeeds rfl hlive hcell hshort hroom' hb')
      · rw [hstage']
        show Succeeds (if _ then _ else _) _
        rw [if_neg (not_not.mpr hcode')]
        exact hcompact.too_large_succeeds rfl hundeleted hlive hfits hcell hshort
          hroom' hspare hover'
    · next hdeleted =>
      exact h.too_large_succeeds rfl
        (hasDeletedCells_eq_false_iff.mp (Bool.eq_false_iff.mpr hdeleted)) hlive
        hfits hcell hshort hroom hspare hover

end Inserting

/-! ## The call -/

/-- The root stands at the top of its levels. -/
theorem Above.top_level {entries : List Listing}
    (h : Above root height entries levels) (hne : levels ≠ []) :
    ∃ p ∈ levels.flatten, p.pageNumber = root ∧ p.treeLevel.toNat + 1 = height + levels.length := by
  induction levels generalizing height entries with
  | nil => exact absurd rfl hne
  | cons row levels ih =>
    obtain ⟨-, hfits, habove⟩ := h
    cases levels with
    | nil =>
      obtain ⟨p, rfl, hroot, -⟩ := habove.singleton
      refine ⟨p, by simp, hroot, ?_⟩
      rw [hfits.level p (mem_singleton_self p), List.length_singleton]
    | cons upper levels =>
      obtain ⟨p, hp, hroot, hlevel⟩ := ih habove (cons_ne_nil _ _)
      refine ⟨p, ?_, hroot, ?_⟩
      · rw [flatten_cons]
        exact mem_append_right _ hp
      · rw [hlevel, length_cons, length_cons, length_cons]
        omega

/-- Numbers for the pages a call may add, and levels for a new root. -/
structure Headroom (tree : IndexBtreePhysicalTree) : Prop where
  counting : tree.nextPageNumber ≠ 0
  numbers : tree.nextPageNumber.toNat + 2 ^ 16 + 2 < 2 ^ 64
  levels : ∀ root, fetchIndexBtreePhysicalPage tree tree.rootPageNumber = .ok root →
      root.treeLevel.toNat + 1 < 2 ^ 16

/-- The same for a tree whose levels are known. -/
structure Spare (tree : IndexBtreePhysicalTree) (levels : List Level) : Prop where
  counting : tree.nextPageNumber ≠ 0
  numbers : tree.nextPageNumber.toNat + levels.length + 2 < 2 ^ 64
  levels : 1 + levels.length < 2 ^ 16

section

variable (h : Arranged tree leaves levels)
include h

theorem Arranged.spare (hroom : Headroom tree) : Spare tree levels := by
  have hnumbers := hroom.numbers
  suffices hlevels : 1 + levels.length < 2 ^ 16 from ⟨hroom.counting, by omega, hlevels⟩
  by_cases hne : levels = []
  · rw [hne]
    decide
  · obtain ⟨p, hp, hroot, hlevel⟩ := h.tower.above.top_level hne
    have hstored := h.tower.stored p (mem_append_right _ hp)
    have hfetch := hstored.fetched
    rw [hroot] at hfetch
    have hlt : p.treeLevel.toNat + 1 < 2 ^ 16 := hroom.levels (p.settled tree.pageSize) hfetch
    omega

section

variable (hspare : Spare tree levels) (hthird : 3 * limit ≤ cellCapacity tree.pageSize)
  (hshort : ∀ m ∈ leaves.flatMap liveCells, m.bytes ≤ limit)
include hspare hthird hshort

theorem Arranged.roomy : Roomy tree limit 1 levels := by
  have hnumbers := hspare.numbers
  refine ⟨hthird, ?_, hspare.counting, by omega, Nat.one_pos, hspare.levels⟩
  by_cases hne : levels = []
  · rw [hne]
    exact forall_mem_nil _
  · refine Above.cells_bytes (· ≤ limit) h.tower.above ?_ ?_
    · refine h.leaves.filled ?_
      simpa using hne
    · intro p hp c hc
      exact hshort c (mem_flatMap.mpr ⟨p, hp, hc⟩)

/-- A short live cell that is new to the index is taken once its request has
passed the check. -/
theorem Arranged.insert_succeeds (hlive : cell.deleted = false) (hcell : cell.bytes ≤ limit)
    (hfresh : ∀ m ∈ leaves.flatMap liveCells, m.locator ≠ cell.locator)
    (hprobe : validatePhysicalPageBody (requestProbe tree cell) = .ok ()) :
    Succeeds (insertIndexBtreeCell cell) tree := by
  obtain ⟨A, c, B, path, hrow, hsought, hpath, hdescent, hvalid⟩ := h.descendFromRoot_eq cell
  have hrootNumber : tree.rootPageNumber ≠ 0 := (validatePhysicalPageBody_ok_iff.mp hprobe).number
  refine (returns_get.mpr ⟨rfl, rfl⟩).bind ?_
  rw [if_neg hrootNumber]
  refine (returns_ofOutcome.mpr ⟨hprobe, rfl⟩).bind ?_
  refine (returns_ofOutcome.mpr ⟨hdescent, rfl⟩).bind ?_
  refine (returns_ofOutcome.mpr ⟨hvalid, rfl⟩).bind ?_
  exact insertIntoLeaf_succeeds ⟨h, hrow, hsought, hpath, fun _ => hfresh⟩ hlive
    (requestProbe_fits hprobe) hcell hshort (h.roomy hspare hthird hshort) hspare.numbers

end

end

/-- A request that does not pass the check is refused before anything else. -/
theorem insert_refused_by_check
    (hprobe : validatePhysicalPageBody (requestProbe tree cell) ≠ .ok ())
    (h : Refuses (insertIndexBtreeCell cell) tree tree') : tree' = tree := by
  rcases refuses_bind.mp h with h | ⟨t, t', hget, h⟩
  · exact (refuses_get h).elim
  · obtain ⟨rfl, rfl⟩ := returns_get.mp hget
    split at h
    · exact (refuses_throw.mp h).symm
    · rcases refuses_bind.mp h with h | ⟨u, t, hu, -⟩
      · exact h.of_ofOutcome.symm
      · exact absurd (returns_ofOutcome.mp hu).1 hprobe

end ScratchBird.Btree
