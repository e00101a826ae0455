import ScratchBird.Index.BtreeValidate
import ScratchBird.Lib.Levels
import ScratchBird.Proofs.BtreeStore

/-!
# The tree as a stack of levels

A page of the tree is listed by its fence, and by the page that holds the fence.
`down` is what an internal page lists, `up` is the entry a page is listed by, and
a level lies over the one below it when its pages together list exactly the
entries of that level: fences are exact, and parent links point to the page that
holds the fence.

Towards the root an operation finds one entry out of date. `Stale` is that
state, and the rest of the file says what one level makes of it: where the
entry stands, which fences the page gets, and what the next level sees.
-/

namespace ScratchBird.Btree

open Lib List

variable {view : IndexBtreePageBody → IndexBtreePageBody} {a b c : IndexBtreeCell}
  {cells front back us vs : List IndexBtreeCell} {p q left right : IndexBtreePageBody}
  {tree tree' : IndexBtreePhysicalTree} {height : Nat} {holder : UInt64} {path rest : List UInt64}
  {pageSize : UInt32}

/-- Pages side by side on one level of the tree, or a stretch of it. -/
abbrev Level := List IndexBtreePageBody

/-! ## Sorted cells -/

def Ascending (cells : List IndexBtreeCell) : Prop :=
  cells.Pairwise fun a b => a.locator < b.locator

theorem notBefore_iff : notBefore a b ↔ a.locator ≤ b.locator := by
  rw [notBefore, compareIndexBtreeCells_eq, ne_eq, compare_lt_iff_lt, not_lt]

instance : Std.Total notBefore :=
  ⟨fun a b => by
    rw [notBefore_iff, notBefore_iff]
    exact le_total _ _⟩

instance : IsTrans IndexBtreeCell notBefore :=
  ⟨fun a b c hab hbc => by
    rw [notBefore_iff] at hab hbc ⊢
    exact le_trans hab hbc⟩

theorem insertCellSorted_append (hfront : ∀ a ∈ front, a.locator < c.locator)
    (hback : ∀ b ∈ back, c.locator ≤ b.locator) :
    insertCellSorted (front ++ back) c = front ++ c :: back := by
  rw [insertCellSorted]
  induction front with
  | nil =>
    cases back with
    | nil => rfl
    | cons b back =>
      have hb : notBefore c b := notBefore_iff.mpr (hback b mem_cons_self)
      rw [nil_append, List.orderedInsert_cons, if_pos hb]
      rfl
  | cons a front ih =>
    obtain ⟨ha, hfront⟩ := forall_mem_cons.mp hfront
    have ha : ¬notBefore c a := fun h => absurd (notBefore_iff.mp h) (not_le.mpr ha)
    rw [cons_append, List.orderedInsert_cons, if_neg ha, ih hfront, cons_append]

theorem insertCellSorted_perm :
    (insertCellSorted cells c).Perm (c :: cells) := List.perm_orderedInsert _ _ _

theorem sortCells_perm : (sortCells cells).Perm cells := perm_insertionSort _ _

theorem sortCells_of_ordered (h : cells.Pairwise fun a b => a.locator ≤ b.locator) :
    sortCells cells = cells := by
  have hsorted : cells.Pairwise notBefore := h.imp fun hab => notBefore_iff.mpr hab
  exact hsorted.insertionSort_eq

theorem sortCells_of_ascending (h : Ascending cells) : sortCells cells = cells :=
  sortCells_of_ordered (h.imp fun hab => le_of_lt hab)

theorem sortCells_ordered : (sortCells cells).Pairwise fun a b => a.locator ≤ b.locator :=
  (List.pairwise_insertionSort notBefore cells).imp fun hab => notBefore_iff.mp hab

/-! ## Fences -/

@[simp] theorem fence_child : (fenceCellForPage p).childPageNumber = p.pageNumber := rfl

@[simp] theorem fence_deleted : (fenceCellForPage p).deleted = false := rfl

theorem lastLiveCell_eq : lastLiveCell p = (liveCells p).getLast? := by
  rw [lastLiveCell, ← List.head?_filter, List.filter_reverse, List.head?_reverse, liveCells]

/-- The fence of a page is its last live cell. -/
theorem fence_locator (h : liveCells p = front ++ [c]) :
    (fenceCellForPage p).locator = c.locator := by
  have hlast : lastLiveCell p = some c := by rw [lastLiveCell_eq, h, getLast?_concat]
  rw [fenceCellForPage, hlast]
  rfl

/-- The fence bounds the live cells of its page. -/
theorem locator_le_fence (hordered : (liveCells p).Pairwise
    fun a b => a.locator ≤ b.locator) (hc : c ∈ liveCells p) :
    c.locator ≤ (fenceCellForPage p).locator := by
  obtain ⟨front, last, hlive⟩ :=
    (eq_nil_or_concat' (liveCells p)).resolve_left (List.ne_nil_of_mem hc)
  rw [fence_locator hlive]
  rw [hlive] at hc hordered
  rcases mem_append.mp hc with hfront | hlast
  · exact (pairwise_append.mp hordered).2.2 c hfront last mem_cons_self
  · rw [mem_singleton.mp hlast]

theorem liveCells_of_undeleted (h : ∀ c ∈ p.cells, c.deleted = false) : liveCells p = p.cells := by
  rw [liveCells, List.filter_eq_self]
  intro c hc
  rw [h c hc]
  rfl

/-! ## Levels -/

/-- A fence, and the number of the page that holds it. -/
abbrev Listing := IndexBtreeCell × UInt64

namespace IndexBtreePageBody

/-- What a page lists. -/
def down (p : IndexBtreePageBody) : List Listing := p.cells.map fun c => (c, p.pageNumber)

/-- What a page is listed by. -/
def up (p : IndexBtreePageBody) : Listing := (fenceCellForPage p, p.parentPageNumber)

/-- A page without its parent link. -/
def core (p : IndexBtreePageBody) : IndexBtreePageBody := { p with parentPageNumber := 0 }

/-- A page without its parent link and its cells. -/
def frame (p : IndexBtreePageBody) : IndexBtreePageBody :=
  { p with parentPageNumber := 0, freeSpaceBytes := 0, cells := [] }

end IndexBtreePageBody

abbrev PageLinks (previous : UInt64) (row : Level) (next : UInt64) : Prop :=
  Linked (·.pageNumber) (·.leftSiblingPageNumber) (·.rightSiblingPageNumber) previous row next

abbrev pageNumbers (pages : Level) : List UInt64 := pages.map (·.pageNumber)

/-- A level of internal pages at a height. Only the root is alone, and it has at
least two fences. -/
structure LevelFits (height : Nat) (top : Bool) (row : Level) : Prop where
  level : ∀ p ∈ row, p.treeLevel.toNat = height
  kind : ∀ p ∈ row, p.pageKind = if top then .root else .internal
  linked : PageLinks 0 row 0
  fences : ∀ p ∈ row, p.cells ≠ []
  live : ∀ p ∈ row, ∀ c ∈ p.cells, c.deleted = false
  wide : top = true → ∀ p ∈ row, 2 ≤ p.cells.length

/-- The levels above a list of entries, up to the root. -/
def Above (root : UInt64) : Nat → List Listing → List Level → Prop
  | _, entries, [] => ∃ f : IndexBtreeCell, entries = [(f, 0)] ∧ f.childPageNumber = root
  | height, entries, row :: levels =>
    row.flatMap (·.down) = entries ∧ LevelFits height levels.isEmpty row ∧
      Above root (height + 1) (row.map (·.up)) levels

/-- The pages passed on the way from the holder of an entry to the root. -/
def PathUp : List Level → UInt64 → List UInt64 → Prop
  | [], _, path => path = []
  | row :: levels, holder, path => ∃ p ∈ row, p.pageNumber = holder ∧
      ∃ above, path = holder :: above ∧ PathUp levels p.parentPageNumber above

/-! ## Rows that differ in their parent links -/

section Cores

variable {row row' : Level}

/-- What a view of a page determines is the same in rows that look the same. -/
theorem map_eq_of_view {α : Type} (f : IndexBtreePageBody → α) (h : row'.map view = row.map view)
    (hf : ∀ p, f (view p) = f p) : row'.map f = row.map f := by
  have hmap := congrArg (List.map f) h
  rw [map_map, map_map] at hmap
  have hcomp : f ∘ view = f := funext hf
  rwa [hcomp] at hmap

theorem down_of_core (h : row'.map (·.core) = row.map (·.core)) :
    row'.flatMap (·.down) = row.flatMap (·.down) := by
  rw [flatMap_def, flatMap_def, map_eq_of_view _ h fun _ => rfl]

theorem exists_of_view (h : row'.map view = row.map view) (hp : p ∈ row') :
    ∃ q ∈ row, view q = view p := by
  have hmem : view p ∈ row.map view := h ▸ mem_map_of_mem hp
  exact mem_map.mp hmem

/-- What a view shows of a page holds in rows that look the same. -/
theorem forall_of_view {P : IndexBtreePageBody → Prop} (h : row'.map view = row.map view)
    (hP : ∀ p, P (view p) ↔ P p) (hrow : ∀ p ∈ row, P p) : ∀ p ∈ row', P p := by
  intro p hp
  obtain ⟨q, hq, hview⟩ := exists_of_view h hp
  rw [← hP, ← hview, hP]
  exact hrow q hq

theorem LevelFits.of_core {top : Bool} (hfits : LevelFits height top row)
    (h : row'.map (·.core) = row.map (·.core)) : LevelFits height top row' where
  level := forall_of_view h (fun _ => .rfl) hfits.level
  kind := forall_of_view h (fun _ => .rfl) hfits.kind
  linked := (linked_congr (map_eq_of_view _ h fun _ => rfl)).mpr hfits.linked
  fences := forall_of_view h (fun _ => .rfl) hfits.fences
  live := forall_of_view h (fun _ => .rfl) hfits.live
  wide htop := forall_of_view h (fun _ => .rfl) (hfits.wide htop)

end Cores

/-! ## An entry out of date -/

/-- The entries `old` of one holder are to give way to the entries `new`. All
levels still agree with the old ones. -/
structure Stale (tree : IndexBtreePhysicalTree) (height : Nat) (levels : List Level)
    (U old new V : List Listing) (holder : UInt64) (path : List UInt64) : Prop where
  above : Above tree.rootPageNumber height (U ++ (old ++ V)) levels
  stored : ∀ p ∈ levels.flatten, Stored tree p
  numbers : (pageNumbers levels.flatten).Nodup
  children : ((U ++ (old ++ V)).map (·.1.childPageNumber)).Nodup
  path : PathUp levels holder path
  held : old ≠ [] ∧ ∀ e ∈ old, e.2 = holder
  owned : new ≠ [] ∧ ∀ e ∈ new, e.2 = holder
  live : ∀ e ∈ new, e.1.deleted = false
  ascending : Ascending ((U ++ (new ++ V)).map Prod.fst)

/-- Where the entries stand in the level above them. -/
structure Focus (row : Level) (levels : List Level) (U old V : List Listing) (path : List UInt64)
    (X : Level) (p : IndexBtreePageBody) (Y : Level) (us vs : List IndexBtreeCell)
    (rest : List UInt64) : Prop where
  row : row = X ++ p :: Y
  cells : p.cells = us ++ (old.map Prod.fst ++ vs)
  before : U = X.flatMap (·.down) ++ us.map fun c => (c, p.pageNumber)
  after : V = vs.map (fun c => (c, p.pageNumber)) ++ Y.flatMap (·.down)
  path : path = p.pageNumber :: rest
  above : PathUp levels p.parentPageNumber rest

theorem holder_of_mem_down {e : Listing} (h : e ∈ p.down) : e.2 = p.pageNumber := by
  obtain ⟨c, -, rfl⟩ := mem_map.mp h
  rfl

section Focusing

variable {row : Level} {levels : List Level} {U old new V : List Listing}

theorem page_unique {pages : Level} (h : (pageNumbers pages).Nodup) (hp : p ∈ pages)
    (hq : q ∈ pages) (hnumber : p.pageNumber = q.pageNumber) : p = q :=
  List.inj_on_of_nodup_map h hp hq hnumber

/-- The entries of one holder stand side by side on its page. -/
theorem Stale.focus (h : Stale tree height (row :: levels) U old new V holder path) :
    ∃ X p Y us vs rest, Focus row levels U old V path X p Y us vs rest ∧ p.pageNumber = holder := by
  obtain ⟨hdown, -, -⟩ := h.above
  obtain ⟨e, more, rfl⟩ := List.exists_cons_of_ne_nil h.held.1
  obtain ⟨he, hmore⟩ := forall_mem_cons.mp h.held.2
  obtain ⟨X, p, Y, u, v, rfl, hp, hU, hV⟩ := flatMap_eq_append_cons hdown
  have hholder : p.pageNumber = holder := by
    rw [← he, holder_of_mem_down (p := p)]
    rw [hp]
    exact mem_append_right _ mem_cons_self
  have hnodup : (pageNumbers (X ++ p :: Y)).Nodup := by
    have hnumbers := h.numbers
    rw [flatten_cons, pageNumbers, map_append] at hnumbers
    exact hnumbers.of_append_left
  -- an entry in the list of a page behind `p` has another holder
  have hother : ∀ e ∈ Y.flatMap (·.down), e.2 ≠ holder := by
    intro e he hne
    obtain ⟨y, hy, hey⟩ := mem_flatMap.mp he
    rw [pageNumbers, map_append, map_cons] at hnodup
    have hcons := nodup_cons.mp hnodup.of_append_right
    refine hcons.1 ?_
    rw [hholder, ← hne, holder_of_mem_down hey]
    exact mem_map_of_mem hy
  obtain ⟨v', rfl, hV'⟩ : ∃ v', v = more ++ v' ∧ V = v' ++ Y.flatMap (·.down) := by
    rcases List.append_eq_append_iff.mp hV with ⟨c, hv, hV⟩ | ⟨c, hmore', hY⟩
    · exact ⟨c, hv, hV⟩
    · cases c with
      | nil =>
        rw [append_nil] at hmore'
        exact ⟨[], by rw [hmore', append_nil], hY.symm⟩
      | cons e' c =>
        refine absurd (hmore e' ?_) (hother e' ?_)
        · rw [hmore']
          exact mem_append_right _ mem_cons_self
        · rw [hY]
          exact mem_cons_self
  obtain ⟨us, tail, hcells, hu, htail⟩ := map_eq_append_iff.mp hp
  obtain ⟨c, tail, rfl, hc, htail⟩ := List.map_eq_cons_iff.mp htail
  obtain ⟨ms, vs, rfl, hms, hvs⟩ := map_eq_append_iff.mp htail
  obtain ⟨q, hq, hqn, rest, rfl, habove⟩ := h.path
  obtain rfl : q = p := page_unique hnodup hq (by simp) (hqn.trans hholder.symm)
  refine ⟨X, q, Y, us, vs, rest, ⟨rfl, ?_, ?_, ?_, ?_, habove⟩, hholder⟩
  · have hfst : ms = more.map Prod.fst := by
      rw [← hms, map_map]
      exact (map_id _).symm
    rw [hcells, map_cons, ← hc, hfst, cons_append]
  · rw [hU, ← hu]
  · rw [hV', ← hvs]
  · rw [hholder]

end Focusing

/-! ## What one level makes of it -/

/-- The page, as it was fetched, with its fences brought up to date. -/
def IndexBtreePageBody.refenced (p : IndexBtreePageBody) (pageSize : UInt32)
    (us : List IndexBtreeCell) (new : List Listing)
    (vs : List IndexBtreeCell) : IndexBtreePageBody :=
  { p.settled pageSize with cells := us ++ (new.map Prod.fst ++ vs) }

section

variable (row : Level)
include row

theorem map_fst_down : (row.flatMap (·.down)).map Prod.fst = row.flatMap (·.cells) := by
  rw [List.map_flatMap]
  congr
  funext p
  rw [IndexBtreePageBody.down, map_map]
  exact map_id _

theorem map_up_fst : (row.map (·.up)).map Prod.fst = row.map fenceCellForPage := by
  rw [map_map]
  rfl

theorem map_up_child : (row.map (·.up)).map (·.1.childPageNumber) = pageNumbers row := by
  rw [map_map]
  rfl

end

/-- Fences stand in the order of the cells they are taken from. -/
theorem pairwise_fences {R : Locator → Locator → Prop} {row : Level}
    (h : (row.flatMap liveCells).Pairwise fun a b => R a.locator b.locator)
    (hne : ∀ p ∈ row, liveCells p ≠ []) :
    (row.map fenceCellForPage).Pairwise fun a b => R a.locator b.locator := by
  obtain ⟨-, hrows⟩ := List.pairwise_flatMap.mp h
  have hlast : ∀ p ∈ row, ∃ c ∈ liveCells p, (fenceCellForPage p).locator = c.locator := by
    intro p hp
    obtain ⟨front, c, hcells⟩ := (eq_nil_or_concat' (liveCells p)).resolve_left (hne p hp)
    refine ⟨c, ?_, fence_locator hcells⟩
    rw [hcells]
    exact mem_append_right _ mem_cons_self
  refine pairwise_map.mpr (hrows.imp_of_mem ?_)
  intro p q hp hq hpq
  obtain ⟨c, hc, hpc⟩ := hlast p hp
  obtain ⟨d, hd, hqd⟩ := hlast q hq
  rw [hpc, hqd]
  exact hpq c hc d hd

theorem ascending_fences {row : Level}
    (h : Ascending (row.flatMap liveCells)) (hne : ∀ p ∈ row, liveCells p ≠ []) :
    Ascending (row.map fenceCellForPage) := pairwise_fences h hne

theorem ascending_fences_of_undeleted {row : Level}
    (h : Ascending (row.flatMap (·.cells))) (hne : ∀ p ∈ row, p.cells ≠ [])
    (hlive : ∀ p ∈ row, ∀ c ∈ p.cells, c.deleted = false) :
    Ascending (row.map fenceCellForPage) := by
  have hcells : row.flatMap liveCells = row.flatMap (·.cells) :=
    flatMap_congr fun p hp => liveCells_of_undeleted (hlive p hp)
  refine ascending_fences (hcells ▸ h) fun p hp => ?_
  rw [liveCells_of_undeleted (hlive p hp)]
  exact hne p hp

section Step

variable {row : Level} {levels : List Level} {U old new V : List Listing} {X Y : Level} {Z : Level}

section

variable (hf : Focus row levels U old V path X p Y us vs rest)
include hf

theorem Focus.mem : p ∈ row := by
  rw [hf.row]
  simp

/-- Pages that hold the new cells in place of the one page. -/
theorem Focus.cells_over (hcells : Z.flatMap (·.cells) = us ++ (new.map Prod.fst ++ vs)) :
    (X ++ (Z ++ Y)).flatMap (·.cells) = (U ++ (new ++ V)).map Prod.fst := by
  have hpair : ∀ cells : List IndexBtreeCell,
      (cells.map fun c => (c, p.pageNumber)).map Prod.fst = cells := fun cells => by
    rw [map_map]
    exact map_id _
  rw [hf.before, hf.after, flatMap_append, flatMap_append, hcells,
    map_append, map_append, map_append, map_append, map_fst_down, map_fst_down, hpair, hpair]
  simp only [append_assoc]

theorem Focus.ascending_over (h : Stale tree height (row :: levels) U old new V holder path)
    (hcells : Z.flatMap (·.cells) = us ++ (new.map Prod.fst ++ vs)) :
    Ascending ((X ++ (Z ++ Y)).flatMap (·.cells)) := by
  rw [hf.cells_over hcells]
  exact h.ascending

theorem Focus.down_refenced (howned : ∀ e ∈ new, e.2 = p.pageNumber) :
    (X ++ p.refenced pageSize us new vs :: Y).flatMap (·.down) = U ++ (new ++ V) := by
  have hnew : (new.map Prod.fst).map (fun c => (c, p.pageNumber)) = new := by
    rw [map_map]
    conv_rhs => rw [← map_id new]
    refine map_congr_left fun e he => ?_
    show (e.1, p.pageNumber) = e
    rw [← howned e he]
  have hdown : (p.refenced pageSize us new vs).down = us.map (fun c => (c, p.pageNumber)) ++
        (new ++ vs.map fun c => (c, p.pageNumber)) := by
    show (us ++ (new.map Prod.fst ++ vs)).map (fun c => (c, p.pageNumber)) = _
    rw [map_append, map_append, hnew]
  rw [hf.before, hf.after, flatMap_append, flatMap_cons, hdown]
  simp only [append_assoc]

theorem Focus.ascending (h : Stale tree height (row :: levels) U old new V holder path) :
    Ascending (us ++ (new.map Prod.fst ++ vs)) := by
  have hcells : [p.refenced tree.pageSize us new vs].flatMap (·.cells) =
      us ++ (new.map Prod.fst ++ vs) := flatMap_singleton _ _
  exact (List.pairwise_flatMap.mp (hf.ascending_over h hcells)).1
    (p.refenced tree.pageSize us new vs) (by simp)

/-- The page keeps its other cells. -/
theorem Focus.forall_cells {P : IndexBtreeCell → Prop} (hcells : ∀ c ∈ p.cells, P c)
    (hnew : ∀ e ∈ new, P e.1) : ∀ c ∈ us ++ (new.map Prod.fst ++ vs), P c := by
  rw [hf.cells] at hcells
  simp only [forall_mem_append, forall_mem_map] at hcells ⊢
  exact ⟨hcells.1, hnew, hcells.2.2⟩

theorem Focus.live (h : Stale tree height (row :: levels) U old new V holder path) :
    ∀ c ∈ us ++ (new.map Prod.fst ++ vs), c.deleted = false :=
  hf.forall_cells (h.above.2.1.live p hf.mem) h.live

end

theorem Focus.refenced_ne_nil (h : Stale tree height (row :: levels) U old new V holder path) :
    (p.refenced pageSize us new vs).cells ≠ [] := by
  show us ++ (new.map Prod.fst ++ vs) ≠ []
  simp [h.owned.1]

section

variable (hf : Focus row levels U old V path X p Y us vs rest)
  (h : Stale tree height (row :: levels) U old new V holder path)
include hf h

theorem Focus.stored : Stored tree p := h.stored p (mem_append_left _ hf.mem)

/-- Only the top level has a root. -/
theorem Focus.root_iff : p.pageKind = .root ↔ levels.isEmpty = true := by
  rw [h.above.2.1.kind p hf.mem]
  cases levels <;> simp

/-- The level with the page brought up to date. -/
theorem Focus.levelFits (hwide : levels.isEmpty = true →
      2 ≤ (us ++ (new.map Prod.fst ++ vs)).length) :
    LevelFits height levels.isEmpty (X ++ p.refenced pageSize us new vs :: Y) := by
  have hfits := h.above.2.1
  rw [hf.row] at hfits
  have hp : p ∈ X ++ p :: Y := by simp
  have hreplaced : ∀ {P : IndexBtreePageBody → Prop}, P (p.refenced pageSize us new vs) →
      (∀ q ∈ X ++ p :: Y, P q) → ∀ q ∈ X ++ p.refenced pageSize us new vs :: Y, P q :=
    fun hq => forall_replaced (forall_mem_singleton.mpr hq)
  refine ⟨hreplaced (hfits.level p hp) hfits.level, hreplaced (hfits.kind p hp) hfits.kind, ?_,
    hreplaced (Focus.refenced_ne_nil h) hfits.fences, hreplaced (hf.live h) hfits.live,
    fun htop => hreplaced (hwide htop) (hfits.wide htop)⟩
  refine (linked_congr ?_).mpr hfits.linked
  rw [map_append, map_append]
  rfl

/-- The fences of the updated level ascend. -/
theorem Focus.fences_ascending (hcells : Z.flatMap (·.cells) = us ++ (new.map Prod.fst ++ vs))
    (hne : ∀ z ∈ Z, z.cells ≠ []) : Ascending ((X ++ (Z ++ Y)).map fenceCellForPage) := by
  have hfits := h.above.2.1
  rw [hf.row] at hfits
  refine ascending_fences_of_undeleted (hf.ascending_over h hcells)
    (forall_replaced hne hfits.fences) (forall_replaced (fun z hz c hc => ?_) hfits.live)
  refine hf.live h c ?_
  rw [← hcells]
  exact List.mem_flatMap_of_mem hz hc

theorem Focus.fence_lt (hcells : left.cells ++ right.cells = us ++ (new.map Prod.fst ++ vs))
    (hleft : left.cells ≠ []) (hright : right.cells ≠ []) :
    (fenceCellForPage left).locator < (fenceCellForPage right).locator := by
  have hover : [left, right].flatMap (·.cells) = us ++ (new.map Prod.fst ++ vs) := by
    rw [flatMap_cons, flatMap_singleton]
    exact hcells
  have hasc := hf.fences_ascending h hover
    (forall_mem_cons.mpr ⟨hleft, forall_mem_singleton.mpr hright⟩)
  rw [map_append] at hasc
  exact (pairwise_cons.mp (pairwise_append.mp hasc).2.1).1 _ (by simp)

end

/-- Pages `Z` stand in the place of pages `O` of one parent, and the levels above
still list those. -/
theorem stale_row {O : Level}
    (habove : Above tree.rootPageNumber height ((X ++ (O ++ Y)).map (·.up)) levels)
    (hstored : ∀ q ∈ levels.flatten, Stored tree q) (hlevels : (pageNumbers levels.flatten).Nodup)
    (hrow : (pageNumbers (X ++ (O ++ Y))).Nodup) (hpath : PathUp levels holder path) (hO : O ≠ [])
    (hheld : ∀ o ∈ O, o.parentPageNumber = holder) (hZ : Z ≠ [])
    (howned : ∀ z ∈ Z, z.parentPageNumber = holder)
    (hasc : Ascending ((X ++ (Z ++ Y)).map fenceCellForPage)) :
    Stale tree height levels (X.map (·.up)) (O.map (·.up)) (Z.map (·.up))
      (Y.map (·.up)) holder path := by
  refine ⟨?_, hstored, hlevels, ?_, hpath, ⟨by simpa using hO, ?_⟩, ⟨by simpa using hZ, ?_⟩, ?_, ?_⟩
  · rw [map_append, map_append] at habove
    exact habove
  · rw [pageNumbers, map_append, map_append] at hrow
    rw [map_append, map_append, map_up_child, map_up_child, map_up_child]
    exact hrow
  · exact forall_mem_map.mpr hheld
  · exact forall_mem_map.mpr howned
  · exact forall_mem_map.mpr fun _ _ => rfl
  · rw [map_append, map_append] at hasc
    rw [map_append, map_append, map_up_fst, map_up_fst, map_up_fst]
    exact hasc

/-- Once pages `Z` stand in the place of the one page, its own entry is the one
out of date. -/
theorem Focus.next (hf : Focus row levels U old V path X p Y us vs rest)
    (h : Stale tree height (row :: levels) U old new V holder path)
    (hroot : tree'.rootPageNumber = tree.rootPageNumber)
    (hstored : ∀ q ∈ levels.flatten, Stored tree' q)
    (hcells : Z.flatMap (·.cells) = us ++ (new.map Prod.fst ++ vs))
    (hZ : Z ≠ []) (hne : ∀ z ∈ Z, z.cells ≠ [])
    (hparent : ∀ z ∈ Z, z.parentPageNumber = p.parentPageNumber) :
    Stale tree' (height + 1) levels (X.map (·.up)) [p.up] (Z.map (·.up))
      (Y.map (·.up)) p.parentPageNumber rest := by
  have hnumbers := h.numbers
  rw [flatten_cons, pageNumbers, map_append, hf.row] at hnumbers
  obtain ⟨hrow, hlevels, -⟩ := nodup_append'.mp hnumbers
  have habove := h.above.2.2
  rw [hf.row, ← hroot] at habove
  exact @stale_row _ _ _ _ _ _ _ _ [p] habove hstored hlevels hrow hf.above
    (cons_ne_nil _ _) (forall_mem_singleton.mpr rfl) hZ hparent (hf.fences_ascending h hcells hne)

/-- Nothing lies above the root, which keeps its number. -/
theorem Stale.top {e e' : Listing} (h : Stale tree height [] U [e] [e'] V holder path)
    (hchild : e.1.childPageNumber = e'.1.childPageNumber) :
    Above tree.rootPageNumber height (U ++ ([e'] ++ V)) [] := by
  obtain ⟨f, hentries, hroot⟩ := h.above
  cases U with
  | nil =>
    obtain ⟨rfl, hV⟩ := List.cons.inj hentries
    obtain rfl : V = [] := hV
    have hholder : (0 : UInt64) = holder := h.held.2 (f, 0) mem_cons_self
    refine ⟨e'.1, ?_, hchild.symm.trans hroot⟩
    rw [hholder, ← h.owned.2 e' mem_cons_self]
    rfl
  | cons u U =>
    obtain ⟨-, hrest⟩ := List.cons.inj hentries
    exact absurd hrest (by simp)

end Step

end ScratchBird.Btree
