import ScratchBird.Proofs.BtreeBulk
import ScratchBird.Proofs.BtreeImport

/-!
# What the bulk loader builds

Every round of the level loop leaves a row of pages whose cells are the fences of
the row below, in order, and whose numbers go on where the row below ended. The
rows form a stack of levels that lacks one thing only: the level a page carries
is counted in sixteen bits. The validator closes that gap, since it compares the
level of each page with the level of its children, and the check for duplicates
turns the order of the cells into a strict one. With that the loader's tree is an
index in order, and what holds of one in order holds of it.
-/

namespace ScratchBird.Btree

open Lib List
open Storage (isTypedEngineIdentity)

variable {images : List IndexBtreePhysicalPageImage} {rounds leafPageCount branchLevelCount : Nat}
  {leaves state state' final : BulkState} {n m next : UInt64} {numbers more holders : List UInt64}
  {packing : BulkPacking} {groups : List (List IndexBtreeCell)} {tree : IndexBtreePhysicalTree}
  {pages row upper : Level} {page p q : IndexBtreePageBody} {pageSize : UInt32} {c : IndexBtreeCell}
  {cells : List IndexBtreeCell} {levels : List Level} {request : IndexBtreePhysicalBulkBuildRequest}
  {packed : BulkPacked} {kind : IndexBtreePageKind} {result : IndexBtreePhysicalBulkBuildResult}
  {index : TypedUuid} {adopted : Level}

/-! ## Numbers counted up -/

/-- The numbers of a list go up from `n`, and `next` comes behind them. -/
def CountedFrom : UInt64 → List UInt64 → UInt64 → Prop
  | n, [], next => next = n
  | n, m :: numbers, next => m = n ∧ CountedFrom (n + 1) numbers next

theorem CountedFrom.append (h : CountedFrom n numbers m)
    (hmore : CountedFrom m more next) : CountedFrom n (numbers ++ more) next := by
  induction numbers generalizing n with
  | nil =>
    obtain rfl : m = n := h
    exact hmore
  | cons k numbers ih => exact ⟨h.1, ih h.2⟩

theorem toNat_succ (h : n + 1 ≠ 0) : (n + 1).toNat = n.toNat + 1 := by
  have hlt := n.toNat_lt
  have hone : (1 : UInt64).toNat = 1 := rfl
  rw [ne_eq, ← UInt64.toNat_inj, UInt64.toNat_add, UInt64.toNat_zero] at h
  rw [UInt64.toNat_add]
  omega

section

variable (h : CountedFrom n numbers next) (hne : ∀ m ∈ numbers, m ≠ 0)
include h hne

/-- Numbers counted up without passing zero ascend, and lie below the next. -/
theorem CountedFrom.ascending :
    numbers.Pairwise (· < ·) ∧ ∀ m ∈ numbers, n.toNat ≤ m.toNat ∧ (m < next ∨ next = 0) := by
  induction numbers generalizing n with
  | nil => exact ⟨List.Pairwise.nil, forall_mem_nil _⟩
  | cons k numbers ih =>
    obtain ⟨rfl, hrest⟩ := h
    obtain ⟨hasc, hbounds⟩ := ih hrest (forall_mem_cons.mp hne).2
    cases numbers with
    | nil =>
      obtain rfl : next = k + 1 := hrest
      refine ⟨pairwise_singleton _ _, forall_mem_singleton.mpr ⟨le_rfl, ?_⟩⟩
      by_cases hzero : k + 1 = 0
      · exact .inr hzero
      · refine .inl (UInt64.lt_iff_toNat_lt.mpr ?_)
        have hsucc := toNat_succ hzero
        omega
    | cons j numbers =>
      have hsucc : (k + 1).toNat = k.toNat + 1 := by
        refine toNat_succ ?_
        rw [← hrest.1]
        exact hne j (mem_cons_of_mem _ mem_cons_self)
      refine ⟨pairwise_cons.mpr ⟨fun m hm => ?_, hasc⟩,
        forall_mem_cons.mpr ⟨⟨le_rfl, ?_⟩, fun m hm => ⟨?_, (hbounds m hm).2⟩⟩⟩
      · have hle := (hbounds m hm).1
        exact UInt64.lt_iff_toNat_lt.mpr (by omega)
      · obtain ⟨hle, hlt | hzero⟩ := hbounds j mem_cons_self
        · rw [UInt64.lt_iff_toNat_lt] at hlt
          exact .inl (UInt64.lt_iff_toNat_lt.mpr (by omega))
        · exact .inr hzero
      · have hle := (hbounds m hm).1
        omega

theorem CountedFrom.nodup : numbers.Nodup := (h.ascending hne).1.imp UInt64.ne_of_lt

end

theorem countedFrom_pages (hplain : packing.Plain) :
    CountedFrom n (pageNumbers (packing.pages n groups)) (advance n groups.length) := by
  induction groups generalizing n with
  | nil => rfl
  | cons group groups ih => exact ⟨hplain.number n, ih⟩

/-! ## The pages as images -/

/-- The image of a page. -/
def IndexBtreePageBody.image (page : IndexBtreePageBody) (pageSize : UInt32) :
    IndexBtreePhysicalPageImage :=
  ⟨page.pageNumber, (page.laidOut pageSize).serialized⟩

theorem serializePage_ok_iff {image : IndexBtreePhysicalPageImage} :
    serializePage pageSize page = .ok image ↔
      Buildable page pageSize ∧ image = page.image pageSize := by
  rw [serializePage, bind_eq_ok_iff]
  constructor
  · rintro ⟨built, hbuilt, h⟩
    obtain ⟨hb, rfl⟩ := buildIndexBtreePageBody_ok_iff.mp (atStage_ok_iff.mp hbuilt)
    obtain ⟨parsed, -, h⟩ := bind_eq_ok_iff.mp h
    exact ⟨hb, (Except.ok.inj h).symm⟩
  · rintro ⟨hb, rfl⟩
    refine ⟨_, atStage_ok_iff.mpr (buildIndexBtreePageBody_ok_iff.mpr ⟨hb, rfl⟩), ?_⟩
    exact bind_eq_ok_iff.mpr ⟨_, atStage_ok_iff.mpr (parse_laidOut hb), rfl⟩

theorem mapM_serializePage_ok (h : pages.mapM (serializePage pageSize) = .ok images) :
    (∀ p ∈ pages, Buildable p pageSize) ∧ images = pages.map (·.image pageSize) := by
  induction pages generalizing images with
  | nil =>
    cases h
    exact ⟨forall_mem_nil _, rfl⟩
  | cons page pages ih =>
    rw [List.mapM_cons] at h
    obtain ⟨image, himage, h⟩ := bind_eq_ok_iff.mp h
    obtain ⟨rest, hrest, h⟩ := bind_eq_ok_iff.mp h
    cases h
    obtain ⟨hb, rfl⟩ := serializePage_ok_iff.mp himage
    obtain ⟨hbs, rfl⟩ := ih hrest
    exact ⟨forall_mem_cons.mpr ⟨hb, hbs⟩, rfl⟩

theorem publishImage_new {image : IndexBtreePhysicalPageImage}
    (h : image.pageNumber ∉ images.map (·.pageNumber)) :
    publishImage image images = images ++ [image] := by
  induction images with
  | nil => rfl
  | cons i images ih =>
    rw [map_cons, mem_cons, not_or] at h
    rw [publishImage, if_neg (Ne.symm h.1), ih h.2, cons_append]

/-- Pages of new numbers are added behind the others. -/
theorem storeAll_new (h : (tree.pages.map (·.pageNumber) ++ pageNumbers pages).Nodup) :
    storeAll tree pages =
      { tree with pages := tree.pages ++ pages.map (·.image tree.pageSize) } := by
  induction pages generalizing tree with
  | nil =>
    rw [map_nil, append_nil]
    rfl
  | cons page pages ih =>
    have hnew : page.pageNumber ∉ tree.pages.map (·.pageNumber) := by
      intro hmem
      exact (List.nodup_append.mp h).2.2 _ hmem _ mem_cons_self rfl
    have hstore : store tree page =
        { tree with pages := tree.pages ++ [page.image tree.pageSize] } :=
      congrArg (fun images => { tree with pages := images })
        (@publishImage_new _ (page.image tree.pageSize) hnew)
    rw [storeAll_cons, hstore, ih]
    · show IndexBtreePhysicalTree.mk _ _ _ _ _ = _
      rw [append_assoc]
      rfl
    · show ((tree.pages ++ [page.image tree.pageSize]).map _ ++ _).Nodup
      rw [map_append, append_assoc]
      exact h

/-! ## Levels as the validator sees them -/

/-- A row of branch pages, whatever level its pages carry. -/
structure RowShape (top : Bool) (row : Level) : Prop where
  kind : ∀ p ∈ row, p.pageKind = if top then .root else .internal
  linked : PageLinks 0 row 0
  fences : ∀ p ∈ row, p.cells ≠ []
  live : ∀ p ∈ row, ∀ c ∈ p.cells, c.deleted = false
  wide : top = true → ∀ p ∈ row, 2 ≤ p.cells.length

/-- The rows above a list of entries, up to the root. -/
def Stacked (root : UInt64) : List Listing → List Level → Prop
  | entries, [] => ∃ f : IndexBtreeCell, entries = [(f, 0)] ∧ f.childPageNumber = root
  | entries, row :: levels =>
    row.flatMap (·.down) = entries ∧ RowShape levels.isEmpty row ∧
      Stacked root (row.map (·.up)) levels

/-- A page the traversal has gone through. -/
def Visited (tree : IndexBtreePhysicalTree) (n : UInt64) : Prop :=
  ∃ fuel parent content content', collectReachableContent tree fuel parent n content = .ok content'

theorem visitFences_ok {content content' : ReachableContent}
    {visit : UInt64 → ReachableContent → Except DiagnosticRecord ReachableContent}
    (h : visitFences tree page visit cells content = .ok content') :
    ∀ c ∈ cells, checkFence tree page c = .ok () ∧
      ∃ before after, visit c.childPageNumber before = .ok after := by
  induction cells generalizing content with
  | nil => exact forall_mem_nil _
  | cons fence rest ih =>
    obtain ⟨⟨⟩, hcheck, h⟩ := bind_eq_ok_iff.mp h
    obtain ⟨after, hvisit, h⟩ := bind_eq_ok_iff.mp h
    exact forall_mem_cons.mpr ⟨⟨hcheck, _, after, hvisit⟩, ih h⟩

/-- The fences of a page the traversal has gone through were checked, and their
children visited. -/
theorem Visited.fences (h : Visited tree p.pageNumber) (hstored : Stored tree p)
    (hinternal : isInternalLike p = true) :
    ∀ c ∈ p.cells, checkFence tree (p.settled tree.pageSize) c = .ok () ∧
      Visited tree c.childPageNumber := by
  obtain ⟨fuel, parent, content, content', h⟩ := h
  cases fuel with
  | zero => cases h
  | succ fuel =>
    rw [collectReachableContent, indexPageError, guard_eq_ok_iff,
      validationFetch_stored hstored] at h
    obtain ⟨-, h⟩ := h
    have h : (if (p.settled tree.pageSize).indexUuid.value ≠
        tree.indexUuid.value then _ else _) = Except.ok content' := h
    rw [indexPageError, indexPageError, guard_eq_ok_iff, guard_eq_ok_iff] at h
    obtain ⟨-, -, h⟩ := h
    have hleaf : isLeafLike (p.settled tree.pageSize) = false := by
      show isLeafLike p = false
      rw [isLeafLike_eq hstored.built.fits.kind, hinternal]
      rfl
    have hkind : isInternalLike (p.settled tree.pageSize) = true := hinternal
    rw [hleaf, hkind] at h
    intro c hc
    obtain ⟨hcheck, before, after, hvisit⟩ := visitFences_ok h c hc
    exact ⟨hcheck, fuel, _, before, after, hvisit⟩

theorem checkFence_level (h : checkFence tree page (fenceCellForPage q) = .ok ())
    (hstored : Stored tree q) : q.treeLevel.toNat + 1 = page.treeLevel.toNat := by
  rw [checkFence, indexPageError, guard_eq_ok_iff] at h
  obtain ⟨child, hchild, h⟩ := bind_eq_ok_iff.mp h.2
  rw [fence_child, validationFetch_stored hstored] at hchild
  cases hchild
  rw [indexPageError, guard_eq_ok_iff, not_not] at h
  exact h.1

theorem internal_of_fence (hstored : Stored tree q)
    (h : fenceCellForPage p ∈ q.cells) : isInternalLike q = true :=
  (hstored.built.fits.cells _ h).highKey.symm

/-- The page that holds the fence of a page of the row below. -/
theorem exists_holder (h : upper.flatMap (·.down) = row.map (·.up)) (hp : p ∈ row) :
    ∃ q ∈ upper, fenceCellForPage p ∈ q.cells := by
  have hmem : p.up ∈ upper.flatMap (·.down) := h ▸ mem_map_of_mem hp
  obtain ⟨q, hq, hdown⟩ := mem_flatMap.mp hmem
  obtain ⟨c, hc, hup⟩ := mem_map.mp hdown
  have hfence : c = fenceCellForPage p := congrArg Prod.fst hup
  exact ⟨q, hq, hfence ▸ hc⟩

/-- The page of the row below that a cell is the fence of. -/
theorem exists_child (h : upper.flatMap (·.down) = row.map (·.up)) (hq : q ∈ upper)
    (hc : c ∈ q.cells) : ∃ p ∈ row, c = fenceCellForPage p := by
  have hmem : (c, q.pageNumber) ∈ row.map (·.up) := by
    rw [← h]
    exact mem_flatMap.mpr ⟨q, hq, mem_map_of_mem hc⟩
  obtain ⟨p, hp, hup⟩ := mem_map.mp hmem
  exact ⟨p, hp, (congrArg Prod.fst hup).symm⟩

/-- From the root the traversal comes to every page of a row. -/
theorem Stacked.visited (h : Stacked tree.rootPageNumber (row.map (·.up)) levels)
    (hstored : ∀ p ∈ levels.flatten, Stored tree p) (hroot : Visited tree tree.rootPageNumber) :
    ∀ p ∈ row, Visited tree p.pageNumber := by
  induction levels generalizing row with
  | nil =>
    obtain ⟨f, hrow, hnumber⟩ := h
    obtain ⟨p, rfl, hup⟩ := List.map_eq_singleton_iff.mp hrow
    have hfence : fenceCellForPage p = f := congrArg Prod.fst hup
    refine forall_mem_singleton.mpr ?_
    rw [← fence_child, hfence, hnumber]
    exact hroot
  | cons upper levels ih =>
    obtain ⟨hdown, -, habove⟩ := h
    have hupper := ih habove fun p hp => hstored p (mem_append_right _ hp)
    intro p hp
    obtain ⟨q, hq, hfence⟩ := exists_holder hdown hp
    have hq' := hstored q (mem_append_left _ hq)
    exact ((hupper q hq).fences hq' (internal_of_fence hq' hfence) _ hfence).2

/-- In a tree the traversal has gone through, levels are heights. -/
theorem Stacked.above {height : Nat} (h : Stacked tree.rootPageNumber (row.map (·.up)) levels)
    (hrow : ∀ p ∈ row, Stored tree p ∧ p.treeLevel.toNat = height)
    (hstored : ∀ p ∈ levels.flatten, Stored tree p) (hroot : Visited tree tree.rootPageNumber) :
    Above tree.rootPageNumber (height + 1) (row.map (·.up)) levels := by
  induction levels generalizing row height with
  | nil => exact h
  | cons upper levels ih =>
    obtain ⟨hdown, hshape, habove⟩ := h
    have hrest : ∀ p ∈ levels.flatten, Stored tree p := fun p hp =>
      hstored p (mem_append_right _ hp)
    have hvisited := habove.visited hrest hroot
    have hlevel : ∀ q ∈ upper, Stored tree q ∧ q.treeLevel.toNat = height + 1 := by
      intro q hq
      have hq' := hstored q (mem_append_left _ hq)
      obtain ⟨c, hc⟩ := List.exists_mem_of_ne_nil _ (hshape.fences q hq)
      obtain ⟨p, hp, rfl⟩ := exists_child hdown hq hc
      obtain ⟨hcheck, -⟩ := (hvisited q hq).fences hq' (internal_of_fence hq' hc) _ hc
      have hstep := checkFence_level hcheck (hrow p hp).1
      rw [(hrow p hp).2] at hstep
      exact ⟨hq', hstep.symm⟩
    exact ⟨hdown, { hshape with level := fun q hq => (hlevel q hq).2 }, ih habove hlevel hrest⟩

/-! ## Rounds -/

/-- A page without what it gets when the row above it is built. -/
def IndexBtreePageBody.seatless (p : IndexBtreePageBody) : IndexBtreePageBody :=
  { p with parentPageNumber := 0, pageKind := .root }

/-- A row as a round leaves it. -/
structure NewRow (request : IndexBtreePhysicalBulkBuildRequest)
    (kind : IndexBtreePageKind) (row : Level) : Prop where
  kind : ∀ p ∈ row, p.pageKind = kind
  index : ∀ p ∈ row, p.indexUuid = request.indexUuid
  linked : PageLinks 0 row 0
  filled : ∀ p ∈ row, p.cells ≠ []
  live : ∀ p ∈ row, ∀ c ∈ p.cells, c.deleted = false

theorem map_adopted {α : Type} (f : IndexBtreePageBody → α)
    (hf : ∀ p n, f (p.adoptedBy n) = f p) (h : holders.length = row.length) :
    (List.zipWith (·.adoptedBy ·) row holders).map f = row.map f := by
  induction row generalizing holders with
  | nil => rfl
  | cons p row ih =>
    obtain ⟨holder, holders, rfl⟩ := List.exists_cons_of_length_eq_add_one h
    rw [List.zipWith_cons_cons, map_cons, map_cons, hf, ih (Nat.succ.inj h)]

theorem up_adopted :
    (List.zipWith (·.adoptedBy ·) row holders).map (·.up) =
      (row.map fenceCellForPage).zip holders := by
  induction row generalizing holders with
  | nil => rfl
  | cons p row ih =>
    cases holders with
    | nil => rfl
    | cons holder holders => exact congrArg (_ :: ·) ih

theorem mem_pages (h : p ∈ packing.pages n groups) : ∃ m group, p = packing.page m group := by
  induction groups generalizing n with
  | nil => cases h
  | cons group groups ih =>
    rcases mem_cons.mp h with rfl | h
    · exact ⟨n, group, rfl⟩
    · exact ih h

theorem Grouped.exists_page (hg : Grouped packing n [] cells groups packed)
    (hp : p ∈ linkSiblings 0 packed.pages) :
    ∃ m group, packing.page m group ∈ packed.pages ∧
      (packing.page m group).unlinked = p.unlinked := by
  obtain ⟨q, hq, hview⟩ := exists_of_view linkSiblings_unlinked hp
  have hmem := hq
  rw [hg.pages] at hmem
  obtain ⟨m, group, rfl⟩ := mem_pages hmem
  exact ⟨m, group, hq, hview⟩

/-- The pages of a packing, once linked, are a new row. -/
theorem Grouped.newRow (hg : Grouped packing n [] cells groups packed)
    (hkind : ∀ n, (packing.blank n).pageKind = kind)
    (hindex : ∀ n, (packing.blank n).indexUuid = request.indexUuid)
    (hlive : ∀ c ∈ cells, c.deleted = false) :
    NewRow request kind (linkSiblings 0 packed.pages) := by
  refine ⟨fun p hp => ?_, fun p hp => ?_, linkSiblings_links,
    linkSiblings_filled fun p hp => (hg.filled p hp).1, fun p hp c hc => ?_⟩
  · obtain ⟨m, group, -, hview⟩ := hg.exists_page hp
    exact (congrArg (·.pageKind) hview).symm.trans (hkind m)
  · obtain ⟨m, group, -, hview⟩ := hg.exists_page hp
    exact (congrArg (·.indexUuid) hview).symm.trans (hindex m)
  · obtain ⟨m, group, hq, hview⟩ := hg.exists_page hp
    have hcells : (packing.page m group).cells = p.cells := congrArg (·.cells) hview
    rw [← hcells] at hc
    refine hlive c ?_
    have hcontent := hg.pages_flatMap
    rw [nil_append] at hcontent
    rw [← hcontent]
    exact mem_flatMap.mpr ⟨_, hq, hc⟩

/-- What a round makes of the current row. -/
structure Round (request : IndexBtreePhysicalBulkBuildRequest)
    (state state' : BulkState) (adopted : Level) : Prop where
  below : state'.below = state.below ++ adopted
  seatless : adopted.map (·.seatless) = state.current.map (·.seatless)
  kinds : adopted.map (·.pageKind) = state.current.map (·.pageKind)
  down : state'.current.flatMap (·.down) = adopted.map (·.up)
  row : NewRow request .internal state'.current
  counted : CountedFrom state.next (pageNumbers state'.current) state'.next

theorem round_of_ok (h : buildBranchLevel request state = .ok state')
    (hne : state.current ≠ []) : ∃ adopted, Round request state state' adopted := by
  obtain ⟨packed, hpacked, rfl⟩ := buildBranchLevel_ok_iff.mp h
  have hfences : state.current.map fenceCellForPage ≠ [] := fun hnil => hne (map_eq_nil_iff.mp hnil)
  obtain ⟨groups, hg⟩ := packCells_ok branchPacking_plain (.inl ⟨rfl, hfences⟩) hpacked
  have hlength : packed.holders.length = state.current.length := by rw [hg.holders, length_map]
  refine ⟨List.zipWith (·.adoptedBy ·) state.current packed.holders, rfl,
    map_adopted _ (fun _ _ => rfl) hlength, map_adopted _ (fun _ _ => rfl) hlength,
    ?_, hg.newRow (fun _ => rfl) (fun _ => rfl) ?_, ?_⟩
  · have hdown : (linkSiblings 0 packed.pages).map (·.down) = packed.pages.map (·.down) :=
      map_eq_of_view _ linkSiblings_unlinked fun _ => rfl
    show (linkSiblings 0 packed.pages).flatMap (·.down) = _
    rw [up_adopted, flatMap_def, hdown, ← flatMap_def, hg.down]
    rfl
  · intro c hc
    obtain ⟨p, -, rfl⟩ := mem_map.mp hc
    rfl
  · show CountedFrom state.next (pageNumbers (linkSiblings 0 packed.pages)) packed.next
    rw [linkSiblings_numbers, hg.pages, hg.next]
    exact countedFrom_pages branchPacking_plain

/-- The rounds of a loop that ends. -/
inductive Climbs (request : IndexBtreePhysicalBulkBuildRequest) : BulkState → BulkState → Prop where
  | done {state : BulkState} (hone : state.current.length ≤ 1) : Climbs request state state
  | round {state state' final : BulkState} (htwo : 1 < state.current.length)
      (hround : buildBranchLevel request state = .ok state')
      (rest : Climbs request state' final) : Climbs request state final

theorem climbs_of_ok (h : buildBranchLevels request rounds state = some (.ok final)) :
    Climbs request state final := by
  fun_induction buildBranchLevels request rounds state with
  | case1 rounds state hone =>
    cases h
    exact .done hone
  | case2 => cases h
  | case3 => cases h
  | case4 state htwo rounds state' hround ih => exact .round (not_le.mp htwo) hround (ih h)

/-- The number of the root the loop ends with. -/
def BulkState.rootNumber (state : BulkState) : UInt64 :=
  (state.current.head?.map (·.pageNumber)).getD 0

/-- The pages of a finished load. -/
def BulkState.finished (state : BulkState) : Level :=
  state.below ++ state.current.map (·.asBulkRoot)

/-- The current row with its parents set, and the rows above it. -/
structure Completed (request : IndexBtreePhysicalBulkBuildRequest) (kind : IndexBtreePageKind)
    (state final : BulkState) (row : Level) (levels : List Level) : Prop where
  pages : final.finished = state.below ++ (row ++ levels.flatten)
  seatless : row.map (·.seatless) = state.current.map (·.seatless)
  kinds : ∀ p ∈ row, p.pageKind = if levels.isEmpty then .root else kind
  stacked : Stacked final.rootNumber (row.map (·.up)) levels
  index : ∀ p ∈ levels.flatten, p.indexUuid = request.indexUuid

theorem asBulkRoot_seatless (hleft : p.leftSiblingPageNumber = 0)
    (hright : p.rightSiblingPageNumber = 0) : p.asBulkRoot.seatless = p.seatless := by
  cases p
  cases hleft
  cases hright
  rfl

/-- A row of one page is the root. -/
theorem NewRow.root (h : NewRow request kind state.current) (hp : state.current = [p]) :
    Completed request kind state state [p.asBulkRoot] [] := by
  have hlinked := h.linked
  rw [hp] at hlinked
  obtain ⟨hleft, hright, -⟩ := hlinked
  refine ⟨?_, ?_, forall_mem_singleton.mpr rfl, ⟨_, rfl, ?_⟩, forall_mem_nil _⟩
  · rw [BulkState.finished, hp]
    rfl
  · rw [hp]
    exact congrArg ([·]) (asBulkRoot_seatless hleft hright)
  · rw [BulkState.rootNumber, hp]
    rfl

section

variable (h : Round request state state' adopted)
include h

/-- The row a round has built, once the rows above it are there. -/
theorem Round.rowShape (hdone : Completed request .internal state' final row levels)
    (htwo : 1 < state.current.length) :
    row.flatMap (·.down) = adopted.map (·.up) ∧ RowShape levels.isEmpty row := by
  have hdown : row.flatMap (·.down) = adopted.map (·.up) := by
    rw [flatMap_def, map_eq_of_view _ hdone.seatless fun _ => rfl, ← flatMap_def, h.down]
  refine ⟨hdown, hdone.kinds,
    (linked_congr (map_eq_of_view _ hdone.seatless fun _ => rfl)).mpr h.row.linked, ?_, ?_, ?_⟩
  · exact forall_of_view hdone.seatless (fun _ => .rfl) h.row.filled
  · exact forall_of_view hdone.seatless (fun _ => .rfl) h.row.live
  · intro htop p hp
    obtain rfl := List.isEmpty_iff.mp htop
    obtain ⟨f, hrow, -⟩ := hdone.stacked
    obtain ⟨r, rfl, -⟩ := List.map_eq_singleton_iff.mp hrow
    obtain rfl := mem_singleton.mp hp
    have hlength := congrArg List.length hdown
    have hadopted := congrArg List.length h.seatless
    rw [length_map, length_map] at hadopted
    rw [flatMap_singleton, IndexBtreePageBody.down, length_map, length_map] at hlength
    omega

theorem Round.completed (hrow : NewRow request kind state.current)
    (hdone : Completed request .internal state' final row levels)
    (htwo : 1 < state.current.length) :
    Completed request kind state final adopted (row :: levels) := by
  obtain ⟨hdown, hshape⟩ := h.rowShape hdone htwo
  refine ⟨?_, h.seatless, ?_, ⟨hdown, hshape, hdone.stacked⟩, ?_⟩
  · rw [hdone.pages, h.below, flatten_cons, append_assoc]
  · intro p hp
    have hmem : p.pageKind ∈ state.current.map (·.pageKind) := h.kinds ▸ mem_map_of_mem hp
    obtain ⟨q, hq, hkind⟩ := mem_map.mp hmem
    rw [← hkind]
    exact hrow.kind q hq
  · rw [flatten_cons]
    refine forall_mem_append.mpr ⟨?_, hdone.index⟩
    exact forall_of_view hdone.seatless (fun _ => .rfl) h.row.index

theorem Round.current_ne_nil (hne : state.current ≠ []) : state'.current ≠ [] := by
  intro hnil
  have hdown := h.down
  rw [hnil] at hdown
  obtain rfl : adopted = [] := map_eq_nil_iff.mp hdown.symm
  exact hne (map_eq_nil_iff.mp h.seatless.symm)

end

/-- The loop over the levels ends with a stack of rows. -/
theorem Climbs.completed (h : Climbs request state final)
    (hrow : NewRow request kind state.current) (hne : state.current ≠ []) :
    ∃ row levels, Completed request kind state final row levels := by
  induction h generalizing kind with
  | @done state hone =>
    obtain ⟨p, hp⟩ := List.length_eq_one_iff.mp (le_antisymm hone (length_pos_iff.mpr hne))
    exact ⟨_, _, hrow.root hp⟩
  | round htwo hround _ ih =>
    obtain ⟨adopted, hmade⟩ := round_of_ok hround hne
    obtain ⟨row, levels, hdone⟩ := ih hmade.row (hmade.current_ne_nil hne)
    exact ⟨_, _, hmade.completed hrow hdone htwo⟩

/-- The numbers of the pages go up from one. -/
def BulkState.Numbered (state : BulkState) : Prop :=
  CountedFrom 1 (pageNumbers (state.below ++ state.current)) state.next

theorem Round.numbered (h : Round request state state' adopted) (hstate : state.Numbered) :
    state'.Numbered := by
  have hadopted : pageNumbers adopted = pageNumbers state.current :=
    map_eq_of_view _ h.seatless fun _ => rfl
  rw [BulkState.Numbered, h.below, pageNumbers_append, pageNumbers_append, hadopted,
    ← pageNumbers_append]
  exact hstate.append h.counted

theorem Climbs.numbered (h : Climbs request state final)
    (hne : state.current ≠ []) (hstate : state.Numbered) : final.Numbered := by
  induction h with
  | done hone => exact hstate
  | round htwo hround _ ih =>
    obtain ⟨adopted, hmade⟩ := round_of_ok hround hne
    exact ih (hmade.current_ne_nil hne) (hmade.numbered hstate)

/-! ## The tree -/

/-- The rows of a load, before the validator has seen them. -/
structure Loaded (request : IndexBtreePhysicalBulkBuildRequest) (row : Level) (levels : List Level)
    (root next : UInt64) : Prop where
  stacked : Stacked root (row.map (·.up)) levels
  counted : CountedFrom 1 (pageNumbers (row ++ levels.flatten)) next
  index : ∀ p ∈ row ++ levels.flatten, p.indexUuid = request.indexUuid
  level : ∀ p ∈ row, p.treeLevel = 0
  kind : ∀ p ∈ row, p.pageKind = if levels.isEmpty then .root else .leaf
  filled : levels.isEmpty = false → ∀ p ∈ row, liveCells p ≠ []
  cells : row.flatMap liveCells = request.sortedCells

section Trees

variable {root : UInt64}

/-- The tree of a list of pages. -/
def imageTree (pages : Level) (root next : UInt64)
    (pageSize : UInt32) (index : TypedUuid) : IndexBtreePhysicalTree where
  pageSize
  indexUuid := index
  rootPageNumber := root
  nextPageNumber := next
  pages := pages.map (·.image pageSize)

theorem numbers_ne_zero (h : ∀ p ∈ pages, Buildable p pageSize) :
    ∀ n ∈ pageNumbers pages, n ≠ 0 := by
  intro n hn
  obtain ⟨p, hp, rfl⟩ := mem_map.mp hn
  exact (h p hp).fits.number

theorem serializeBulkBuiltPages_ok (hcounted : CountedFrom 1 (pageNumbers pages) next)
    (h : serializeBulkBuiltPages pages root next pageSize index leafPageCount
      branchLevelCount = .ok result) :
    (∀ p ∈ pages, Buildable p pageSize) ∧ result.tree = imageTree pages root next pageSize index ∧
      ∃ validation, validateIndexBtreePhysicalTree result.tree = .ok validation := by
  obtain ⟨images, himages, h⟩ := bind_eq_ok_iff.mp h
  obtain ⟨hsorted, rfl⟩ := mapM_serializePage_ok himages
  have hbuilt : ∀ p ∈ pages, Buildable p pageSize := fun p hp =>
    hsorted p ((perm_insertionSort pageNotAfter pages).mem_iff.mpr hp)
  have hsort : pages.insertionSort pageNotAfter = pages := by
    have hasc := (hcounted.ascending (numbers_ne_zero hbuilt)).1
    refine List.Pairwise.insertionSort_eq ((pairwise_map.mp hasc).imp ?_)
    intro a b hab
    rw [pageNotAfter, UInt64.not_lt]
    exact UInt64.le_of_lt hab
  rw [hsort] at h
  obtain ⟨validation, hvalid, h⟩ := bind_eq_ok_iff.mp h
  obtain ⟨⟨⟩, -, h⟩ := bind_eq_ok_iff.mp h
  cases h
  exact ⟨hbuilt, rfl, validation, atStage_ok_iff.mp hvalid⟩

/-- The pages of a load are stored in its tree. -/
theorem imageTree_stored (hcounted : CountedFrom 1 (pageNumbers pages) next)
    (hbuilt : ∀ p ∈ pages, Buildable p pageSize) (hindex : ∀ p ∈ pages, p.indexUuid = index)
    (hidentity : isTypedEngineIdentity index .object = true) :
    Sound (imageTree pages root next pageSize index) ∧
      ∀ p ∈ pages, Stored (imageTree pages root next pageSize index) p := by
  obtain ⟨-, hbelow⟩ := hcounted.ascending (numbers_ne_zero hbuilt)
  have hnodup := hcounted.nodup (numbers_ne_zero hbuilt)
  have htree : imageTree pages root next pageSize index =
      storeAll (imageTree [] root next pageSize index) pages :=
    (@storeAll_new (imageTree [] root next pageSize index) pages hnodup).symm
  have hstorable : ∀ p ∈ pages, Storable (imageTree [] root next pageSize index) p :=
    fun p hp => ⟨hbuilt p hp, hindex p hp⟩
  have hempty : Sound (imageTree [] root next pageSize index) :=
    ⟨hidentity, nodup_nil, forall_mem_nil _, forall_mem_nil _⟩
  rw [htree]
  refine ⟨hempty.storeAll hstorable fun p hp => ?_, fun p hp => stored_storeAll hstorable hnodup hp⟩
  exact (hbelow p.pageNumber (mem_map_of_mem hp)).2

/-- What the loader has built and the validator accepted is an index in order. -/
theorem Loaded.arranged (h : Loaded request row levels root next) (hload : Loadable request)
    (hresult : serializeBulkBuiltPages (row ++ levels.flatten) root next
      request.pageSize request.indexUuid leafPageCount branchLevelCount =
        .ok result) : Arranged result.tree row levels := by
  obtain ⟨hbuilt, htree, validation, hvalid⟩ := serializeBulkBuiltPages_ok h.counted hresult
  have hstore := @imageTree_stored next (row ++ levels.flatten) _ _ root h.counted
    hbuilt h.index hload.index
  rw [← htree] at hstore
  obtain ⟨hsound, hstored⟩ := hstore
  obtain ⟨-, content, hcontent, -⟩ := validate_ok hvalid
  have hrootNumber : result.tree.rootPageNumber = root := by
    rw [htree]
    rfl
  have hlevel : ∀ p ∈ row, Stored result.tree p ∧ p.treeLevel.toNat = 0 := by
    intro p hp
    refine ⟨hstored p (mem_append_left _ hp), ?_⟩
    rw [h.level p hp]
    rfl
  have hstacked : Stacked result.tree.rootPageNumber (row.map (·.up)) levels :=
    hrootNumber ▸ h.stacked
  refine ExactImage.arranged ⟨hsound.allocated, ?_, hstored, ?_, h.level, h.kind, h.filled⟩ hvalid
  · exact hstacked.above hlevel (fun p hp => hstored p (mem_append_right _ hp))
      ⟨_, _, _, _, hcontent⟩
  · exact h.counted.nodup (numbers_ne_zero hbuilt)

/-- The state in which the loop over the levels starts. -/
structure LeafState (request : IndexBtreePhysicalBulkBuildRequest) (state : BulkState) : Prop where
  row : NewRow request .leaf state.current
  below : state.below = []
  some : state.current ≠ []
  numbered : state.Numbered
  level : ∀ p ∈ state.current, p.treeLevel = 0
  cells : state.current.flatMap (·.cells) = request.sortedCells

theorem Loadable.leafState (hload : Loadable request)
    (hcells : request.sortedCells ≠ []) (hleaves : packLeaves request = .ok leaves) :
    LeafState request leaves := by
  obtain ⟨groups, packed, hg, rfl⟩ := packLeaves_ok hcells hleaves
  have hcontent : (linkSiblings 0 packed.pages).flatMap (·.cells) =
      request.sortedCells := by
    rw [flatMap_def, linkSiblings_cells, ← flatMap_def, hg.pages_flatMap, nil_append]
  refine ⟨hg.newRow (fun _ => rfl) (fun _ => rfl)
    fun c hc => (hload.plain c hc).2.1, rfl, ?_, ?_, ?_, hcontent⟩
  · intro hnil
    have hnil : linkSiblings 0 packed.pages = [] := hnil
    rw [hnil] at hcontent
    exact hcells hcontent.symm
  · show CountedFrom 1 (pageNumbers (linkSiblings 0 packed.pages)) packed.next
    rw [linkSiblings_numbers, hg.pages, hg.next]
    exact countedFrom_pages leafPacking_plain
  · intro p hp
    obtain ⟨m, group, -, hpage⟩ := hg.exists_page hp
    exact (congrArg (·.treeLevel) hpage).symm

theorem finished_numbers :
    pageNumbers state.finished = pageNumbers (state.below ++ state.current) := by
  rw [BulkState.finished, pageNumbers_append, pageNumbers_append]
  refine congrArg (_ ++ ·) ?_
  rw [pageNumbers, map_map]
  rfl

/-- The rows a load ends with. -/
theorem LeafState.loaded (h : LeafState request leaves) (hclimb : Climbs request leaves final) :
    ∃ row levels, Loaded request row levels final.rootNumber final.next ∧
      final.finished = row ++ levels.flatten := by
  have hcounted := hclimb.numbered h.some h.numbered
  obtain ⟨row, levels, hdone⟩ := hclimb.completed h.row h.some
  have hpages := hdone.pages
  rw [h.below, nil_append] at hpages
  have hlive : ∀ p ∈ row, liveCells p = p.cells := fun p hp =>
    liveCells_of_undeleted (forall_of_view hdone.seatless (fun _ => .rfl) h.row.live p hp)
  refine ⟨row, levels, ⟨hdone.stacked, ?_, ?_, ?_, hdone.kinds, ?_, ?_⟩, hpages⟩
  · rw [← hpages, finished_numbers]
    exact hcounted
  · refine forall_mem_append.mpr ⟨?_, hdone.index⟩
    exact forall_of_view hdone.seatless (fun _ => .rfl) h.row.index
  · exact forall_of_view hdone.seatless (fun _ => .rfl) h.level
  · intro _ p hp
    rw [hlive p hp]
    exact forall_of_view hdone.seatless (fun _ => .rfl) h.row.filled p hp
  · rw [flatMap_congr hlive, flatMap_def,
      map_eq_of_view _ hdone.seatless fun _ => rfl, ← flatMap_def, h.cells]

/-- A load without cells is a single leaf. -/
theorem loaded_empty (hcells : request.sortedCells = []) : Loaded request
      [{ indexUuid := request.indexUuid
         pageNumber := 1
         pageKind := .root
         treeLevel := 0 }] [] 1 2 where
  stacked := ⟨_, rfl, rfl⟩
  counted := ⟨rfl, rfl⟩
  index := forall_mem_singleton.mpr rfl
  level := forall_mem_singleton.mpr rfl
  kind := forall_mem_singleton.mpr rfl
  filled htop := absurd htop (by simp)
  cells := hcells.symm

/-- A load that succeeds has built an index in order out of its cells. -/
theorem build_arranged (h : buildIndexBtreePhysicalBulkLoadedTree rounds request =
      some (.ok result)) :
    ∃ leaves levels, Arranged result.tree leaves levels ∧
      leaves.flatMap liveCells = request.sortedCells := by
  revert h
  fun_cases buildIndexBtreePhysicalBulkLoadedTree rounds request with
  | case2 hcheck hcells =>
    intro h
    have hloaded := loaded_empty hcells
    exact ⟨_, _, hloaded.arranged (checkBulkRequest_ok hcheck) (Option.some.inj h), hloaded.cells⟩
  | case6 hcheck hcells leaves hleaves final hlevels =>
    intro h
    have hload := checkBulkRequest_ok hcheck
    obtain ⟨row, levels, hloaded, hpages⟩ :=
      (hload.leafState hcells hleaves).loaded (climbs_of_ok hlevels)
    have hresult : serializeBulkBuiltPages final.finished final.rootNumber
        final.next request.pageSize request.indexUuid leaves.current.length
        final.branchLevelCount = .ok result := Option.some.inj h
    rw [hpages] at hresult
    exact ⟨row, levels, hloaded.arranged hload hresult, hloaded.cells⟩
  | _ =>
    intro h
    cases h

/-- The tree of a load that succeeds is accepted, and a scan of it returns the
cells of the request in their order. -/
theorem bulk_load_scans {rounds : Nat} (h : buildIndexBtreePhysicalBulkLoadedTree rounds request =
      some (.ok result)) :
    (∃ validation, validateIndexBtreePhysicalTree result.tree = .ok validation) ∧
      ∃ scan, scanIndexBtreePhysicalTree result.tree {} = .ok scan ∧
        scan.locators.map (·.entry) = request.sortedCells.map (·.entry) := by
  obtain ⟨leaves, levels, harranged, hcells⟩ := build_arranged h
  obtain ⟨scan, hscan, hentries⟩ := harranged.full_scan
  rw [hcells] at hentries
  exact ⟨harranged.validate, scan, hscan, hentries⟩

theorem bulk_load_scans_two : ∃ result, buildIndexBtreePhysicalBulkLoadedTree 1 (twoLeafRequest 2) =
        some (.ok result) ∧
      ∃ scan, scanIndexBtreePhysicalTree result.tree {} = .ok scan ∧ scan.locators.map (·.entry) =
          [(sampleCell [1] 1).entry, (sampleCell [2] 2).entry] := by
  have hbuild : (buildIndexBtreePhysicalBulkLoadedTree 1 (twoLeafRequest 2)).map
      (·.isOk) = some true := by decide +kernel
  obtain ⟨outcome, hsome, hok⟩ := Option.map_eq_some_iff.mp hbuild
  cases outcome with
  | error d => exact Bool.noConfusion hok
  | ok result => exact ⟨result, hsome, (bulk_load_scans hsome).2⟩

/-- A load is as good as insertions: an index that came to the cells of the load in
any other way gives every request the same answer, or refuses it for the same
reason. -/
theorem bulk_load_scans_as_grown {rounds : Nat} (hgrown : Reached insertsNewEntries tree)
    (hload : buildIndexBtreePhysicalBulkLoadedTree rounds request = some (.ok result))
    (hsame : reachableEntries tree = .ok (request.sortedCells.map (·.entry) : List BtreeEntry))
    (scan : IndexBtreePhysicalScanRequest) :
    (scanIndexBtreePhysicalTree tree scan).map (·.locators.map (·.entry)) =
      (scanIndexBtreePhysicalTree result.tree scan).map (·.locators.map (·.entry)) := by
  obtain ⟨leaves, levels, h⟩ := hgrown.arranged
  obtain ⟨leaves', levels', h', hcells⟩ := build_arranged hload
  rw [← hcells, ← h'.reachableEntries_eq] at hsame
  exact h.scans_alike h' hsame

/-- The cells of the run loaded on four leaves. -/
theorem sampleCells_scan_as_loaded : ∃ tree, runFrom sampleIndex 512 sampleRun = .ok tree ∧
    ∃ result, buildIndexBtreePhysicalBulkLoadedTree 4 (loadRequest 1 2 sampleCells) =
        some (.ok result) ∧
      (scanIndexBtreePhysicalTree tree (pointRequest (sampleCell [3] 3).encodedKey)).map
          (·.locators.map (·.entry)) =
        (scanIndexBtreePhysicalTree result.tree (pointRequest (sampleCell [3] 3).encodedKey)).map
          (·.locators.map (·.entry)) := by
  obtain ⟨tree, hrun, -, hcells, -⟩ := sampleRun_tree
  have hbuild : (buildIndexBtreePhysicalBulkLoadedTree 4 (loadRequest 1 2 sampleCells)).map
      (·.isOk) = some true := by decide +kernel
  obtain ⟨outcome, hload, hok⟩ := Option.map_eq_some_iff.mp hbuild
  cases outcome with
  | error d => exact Bool.noConfusion hok
  | ok result =>
    exact ⟨tree, hrun, result, hload, bulk_load_scans_as_grown
      (reached_of_admitted sampleRun_admitted hrun) hload (reachableEntries_of_collect hcells) _⟩

end Trees

end ScratchBird.Btree
