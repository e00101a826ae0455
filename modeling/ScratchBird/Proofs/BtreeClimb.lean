import ScratchBird.Proofs.BtreeTower

/-!
# Carrying a change towards the root

An insertion changes one entry of the level above the leaves: a leaf has another
fence, or gives way to two leaves. The page that holds the entry is stored with
the new fences, or split when it has grown too large, and either way the next
level up finds one of its entries changed. `carry_ok` is the induction over the
levels; one level is an `Edited` row, and `Edited.climbed` puts the edited row
under what the levels above it have become.
-/

namespace ScratchBird.Btree

open Lib List

variable {tree tree' tree'' : IndexBtreePhysicalTree}
  {pages pages' pages'' others bodies below below' row row' X Y row'' lefts rights more upper Y' Z
    children : Level}
  {child p q page right : IndexBtreePageBody} {n holder m sibling parent : UInt64}
  {f : IndexBtreeCell} {us vs cells front back fences : List IndexBtreeCell}
  {fresh path : List UInt64} {height : Nat} {levels levels' : List Level}
  {U old new V : List Listing} {e : Listing} {result r : IndexBtreePhysicalInsertResult}
  {climb : IndexBtreePageBody → IndexBtreePhysicalInsertResult →
    TreeM IndexBtreePhysicalInsertResult}
  {propagate : IndexBtreePageBody → IndexBtreePageBody → IndexBtreePhysicalInsertResult →
    TreeM IndexBtreePhysicalInsertResult}
  {left : UInt64} {k : TreeM IndexBtreePhysicalInsertResult}

/-! ## One fence among others -/

theorem replaceFence_append (hus : ∀ u ∈ us, u.childPageNumber ≠ child.pageNumber)
    (hf : f.childPageNumber = child.pageNumber) :
    replaceFence child (us ++ f :: vs) = some (us ++ fenceCellForPage child :: vs) := by
  induction us with
  | nil =>
    rw [nil_append, replaceFence, if_pos hf]
    rfl
  | cons u us ih =>
    obtain ⟨hu, hus⟩ := forall_mem_cons.mp hus
    rw [cons_append, replaceFence, if_neg hu, ih hus]
    rfl

theorem removeFence_append (hus : ∀ u ∈ us, u.childPageNumber ≠ n)
    (hvs : ∀ v ∈ vs, v.childPageNumber ≠ n) (hf : f.childPageNumber = n) :
    removeFence n (us ++ f :: vs) = some (us ++ vs) := by
  have hkept : (us ++ f :: vs).filter (·.childPageNumber != n) = us ++ vs := by
    have hself : ∀ cells : List IndexBtreeCell, (∀ c ∈ cells, c.childPageNumber ≠ n) →
          cells.filter (·.childPageNumber != n) = cells := fun cells h =>
      List.filter_eq_self.mpr fun c hc => bne_iff_ne.mpr (h c hc)
    rw [filter_append, filter_cons_of_neg (by simp [hf]), hself us hus, hself vs hvs]
  rw [removeFence, hkept, if_pos]
  simp only [length_append, length_cons]
  omega

/-! ## Rewriting pages -/

/-- What a call on a tree leaves alone besides the pages. -/
structure SameSetup (tree tree' : IndexBtreePhysicalTree) : Prop where
  root : tree'.rootPageNumber = tree.rootPageNumber
  pageSize : tree'.pageSize = tree.pageSize
  index : tree'.indexUuid = tree.indexUuid

/-- A tree has become at most one level higher, and taken no more numbers than it
had levels but for `more`. -/
structure Grown (tree : IndexBtreePhysicalTree) (levels : List Level) (more : Nat)
    (tree' : IndexBtreePhysicalTree) (levels' : List Level) : Prop where
  height : levels'.length ≤ levels.length + 1
  numbers : ∃ taken ≤ levels.length + more,
    tree'.nextPageNumber = advance tree.nextPageNumber taken

/-- `pages` have become `pages'`. Pages of other numbers stay stored, and their
numbers stay unused. -/
structure Rewritten (tree : IndexBtreePhysicalTree) (pages : Level) (tree' : IndexBtreePhysicalTree)
    (pages' : Level) : Prop where
  sound : Sound tree'
  setup : SameSetup tree tree'
  stored : ∀ p ∈ pages', Stored tree' p
  numbers : (pageNumbers pages').Nodup
  frame : ∀ b, Stored tree b → b.pageNumber ∉ pageNumbers pages →
    Stored tree' b ∧ b.pageNumber ∉ pageNumbers pages'

/-- The tree after the numbers `fresh` were taken. -/
structure Fresh (tree tree' : IndexBtreePhysicalTree) (fresh : List UInt64) : Prop where
  sound : Sound tree'
  setup : SameSetup tree tree'
  stored : ∀ b, Stored tree b → Stored tree' b
  unused : ∀ b, Stored tree b → b.pageNumber ∉ fresh
  allocated : ∀ n ∈ fresh, Allocated tree' n

theorem SameSetup.refl (tree : IndexBtreePhysicalTree) : SameSetup tree tree := ⟨rfl, rfl, rfl⟩

theorem SameSetup.trans (h : SameSetup tree tree') (h' : SameSetup tree' tree'') :
    SameSetup tree tree'' :=
  ⟨h'.root.trans h.root, h'.pageSize.trans h.pageSize, h'.index.trans h.index⟩

theorem pageNumbers_append :
    pageNumbers (pages ++ more) = pageNumbers pages ++ pageNumbers more := map_append

/-- Further pages are rewritten beside `others`. -/
theorem Rewritten.beside (h : Rewritten tree pages tree' (others ++ pages'))
    (h' : Rewritten tree' pages' tree'' pages'') :
    Rewritten tree pages tree'' (others ++ pages'') := by
  have hsplit := h.numbers
  rw [pageNumbers_append] at hsplit
  obtain ⟨hothers, -, hdisjoint⟩ := nodup_append'.mp hsplit
  have hkept : ∀ p ∈ others, Stored tree'' p ∧ p.pageNumber ∉ pageNumbers pages'' := by
    intro p hp
    refine h'.frame p (h.stored p (mem_append_left _ hp)) ?_
    exact hdisjoint (mem_map_of_mem hp)
  refine ⟨h'.sound, h.setup.trans h'.setup, ?_, ?_, ?_⟩
  · intro p hp
    rcases mem_append.mp hp with hp | hp
    · exact (hkept p hp).1
    · exact h'.stored p hp
  · rw [pageNumbers_append]
    refine nodup_append'.mpr ⟨hothers, h'.numbers, ?_⟩
    intro n hn hn'
    obtain ⟨p, hp, rfl⟩ := mem_map.mp hn
    exact (hkept p hp).2 hn'
  · intro b hb hn
    obtain ⟨hb', hn'⟩ := h.frame b hb hn
    rw [pageNumbers_append, mem_append, not_or] at hn' ⊢
    obtain ⟨hb'', hn''⟩ := h'.frame b hb' hn'.2
    exact ⟨hb'', hn'.1, hn''⟩

theorem Rewritten.trans (h : Rewritten tree pages tree' pages')
    (h' : Rewritten tree' pages' tree'' pages'') : Rewritten tree pages tree'' pages'' := by
  have hbeside : Rewritten tree pages tree' ([] ++ pages') := h
  exact hbeside.beside h'

theorem fresh_none (hs : Sound tree) : Fresh tree tree [] :=
  ⟨hs, SameSetup.refl tree, fun _ h => h, fun _ _ => not_mem_nil, nofun⟩

theorem fresh_one (hs : Sound tree) (hnext : tree.nextPageNumber ≠ 0) :
    Fresh tree (bump tree) [tree.nextPageNumber] :=
  ⟨hs.bump hnext, ⟨rfl, rfl, rfl⟩, fun _ h => stored_bump h,
    fun _ h hmem => h.number_ne_next hs hnext (mem_singleton.mp hmem),
    fun _ h => mem_singleton.mp h ▸ allocated_next⟩

theorem Fresh.bump (h : Fresh tree tree' fresh) (hnext : tree'.nextPageNumber ≠ 0) :
    Fresh tree (bump tree') (tree'.nextPageNumber :: fresh) := by
  have hone := fresh_one h.sound hnext
  refine ⟨hone.sound, h.setup.trans hone.setup, fun b hb => stored_bump (h.stored b hb), ?_, ?_⟩
  · intro b hb hmem
    rcases mem_cons.mp hmem with heq | hmem
    · exact (h.stored b hb).number_ne_next h.sound hnext heq
    · exact h.unused b hb hmem
  · intro n hn
    rcases mem_cons.mp hn with rfl | hn
    · exact allocated_next
    · exact allocated_bump (h.allocated n hn) hnext

section

variable (h : Fresh tree tree' fresh) (hold : ∀ p ∈ pages, Stored tree p)
include h hold

/-- Pages stored over others. -/
theorem Fresh.rewritten (hnumbers : (pageNumbers pages').Nodup)
    (hsub : ∀ n ∈ pageNumbers pages', n ∈ fresh ∨ n ∈ pageNumbers pages)
    (hbodies : bodies.Sublist pages') (hstorable : ∀ b ∈ bodies, Storable tree' b)
    (hothers : ∀ p ∈ pages', p ∈ bodies ∨ Stored tree p) :
    Rewritten tree pages (storeAll tree' bodies) pages' := by
  have hnodup : (pageNumbers bodies).Nodup := hnumbers.sublist (hbodies.map _)
  have halloc : ∀ b ∈ bodies, Allocated tree' b.pageNumber := by
    intro b hb
    rcases hsub _ (mem_map_of_mem (hbodies.subset hb)) with hn | hn
    · exact h.allocated _ hn
    · obtain ⟨p, hp, hpn⟩ := mem_map.mp hn
      rw [← hpn]
      exact (h.stored p (hold p hp)).allocated h.sound
  refine ⟨h.sound.storeAll hstorable halloc, ?_, ?_, hnumbers, ?_⟩
  · exact h.setup.trans ⟨storeAll_rootPageNumber, storeAll_pageSize, storeAll_indexUuid⟩
  · intro p hp
    by_cases hmem : p ∈ bodies
    · exact stored_storeAll hstorable hnodup hmem
    · refine (h.stored p ((hothers p hp).resolve_left hmem)).storeAll_of_notMem hstorable ?_
      intro hn
      obtain ⟨b, hb, hbp⟩ := mem_map.mp hn
      exact hmem (page_unique hnumbers (hbodies.subset hb) hp hbp ▸ hb)
  · intro b hb hn
    have hn' : b.pageNumber ∉ pageNumbers pages' := fun hmem =>
      (hsub _ hmem).elim (h.unused b hb) hn
    refine ⟨(h.stored b hb).storeAll_of_notMem hstorable fun hmem => hn' ?_, hn'⟩
    exact (hbodies.map _).subset hmem

/-- No page is lost: the numbers are those from before and the fresh ones. -/
theorem Fresh.rewritten_of_perm (hnumbers : (pageNumbers pages).Nodup)
    (hfresh : fresh.Nodup) (hperm : (pageNumbers pages').Perm (fresh ++ pageNumbers pages))
    (hbodies : bodies.Sublist pages') (hstorable : ∀ b ∈ bodies, Storable tree' b)
    (hothers : ∀ p ∈ pages', p ∈ bodies ∨ Stored tree p) :
    Rewritten tree pages (storeAll tree' bodies) pages' := by
  refine h.rewritten hold ?_ ?_ hbodies hstorable hothers
  · rw [hperm.nodup_iff]
    refine nodup_append'.mpr ⟨hfresh, hnumbers, fun n hn hmem => ?_⟩
    obtain ⟨p, hp, rfl⟩ := mem_map.mp hmem
    exact h.unused p (hold p hp) hn
  · exact fun n hn => mem_append.mp (hperm.subset hn)

end

theorem numbers_perm {rest : Level} (hbelow : pageNumbers below' = pageNumbers below)
    (hrow : (pageNumbers row').Perm (fresh ++ pageNumbers row)) :
    (pageNumbers (below' ++ (row' ++ rest))).Perm
      (fresh ++ pageNumbers (below ++ (row ++ rest))) := by
  rw [pageNumbers_append, pageNumbers_append, pageNumbers_append, pageNumbers_append, hbelow]
  refine ((hrow.append_right _).append_left _).trans ?_
  rw [append_assoc]
  exact List.perm_append_comm_assoc _ _ _

/-- One page of a row stored over the page of its number. -/
theorem one_written (hsound : Sound tree) (hstored : ∀ b ∈ below ++ (row ++ upper), Stored tree b)
    (hnodup : (pageNumbers (below ++ (row ++ upper))).Nodup)
    (hrow : row = X ++ p :: Y) (hnumber : q.pageNumber = p.pageNumber)
    (hindex : q.indexUuid = p.indexUuid) (hb : Buildable q tree.pageSize) :
    Rewritten tree (below ++ (row ++ upper)) (store tree q)
      (below ++ ((X ++ q :: Y) ++ upper)) := by
  have hperm : (pageNumbers (X ++ q :: Y)).Perm ([] ++ pageNumbers row) := by
    rw [hrow]
    simp only [map_append, map_cons, hnumber]
    exact List.Perm.refl _
  have hsub : [q].Sublist (below ++ ((X ++ q :: Y) ++ upper)) := by
    simp
  refine (fresh_none hsound).rewritten_of_perm hstored hnodup nodup_nil
    (numbers_perm rfl hperm) hsub ?_ ?_
  · refine forall_mem_singleton.mpr ⟨hb, ?_⟩
    rw [hindex]
    exact (hstored p (by simp [hrow])).index
  · intro b hb
    have hold := hstored b
    rw [hrow] at hold
    simp only [mem_append, mem_cons] at hb hold ⊢
    tauto

/-! ## Towers -/

/-- A row of pages with the levels above it, up to the root. -/
structure Tower (tree : IndexBtreePhysicalTree) (height : Nat) (row : Level) (levels : List Level)
    : Prop where
  sound : Sound tree
  above : Above tree.rootPageNumber height (row.map (·.up)) levels
  stored : ∀ p ∈ row ++ levels.flatten, Stored tree p
  numbers : (pageNumbers (row ++ levels.flatten)).Nodup

/-- The row is stored, the levels above it still list `e` in place of `new`. -/
structure Pending (tree : IndexBtreePhysicalTree) (height : Nat) (row : Level) (levels : List Level)
    (U : List Listing) (e : Listing) (new V : List Listing) (holder : UInt64) (path : List UInt64)
    : Prop where
  sound : Sound tree
  stale : Stale tree height levels U [e] new V holder path
  entries : row.map (·.up) = U ++ (new ++ V)
  stored : ∀ p ∈ row ++ levels.flatten, Stored tree p
  numbers : (pageNumbers (row ++ levels.flatten)).Nodup

/-- How a change was carried to the root: the row keeps its pages up to their
parent links. -/
structure Climbed (tree : IndexBtreePhysicalTree) (height : Nat) (row : Level) (levels : List Level)
    (tree' : IndexBtreePhysicalTree) (row' : Level) (levels' : List Level) : Prop where
  written : Rewritten tree (row ++ levels.flatten) tree' (row' ++ levels'.flatten)
  above : Above tree.rootPageNumber height (row'.map (·.up)) levels'
  core : row'.map (·.core) = row.map (·.core)
  empty : levels'.isEmpty = levels.isEmpty
  grown : Grown tree levels 1 tree' levels'

/-- One level brought up to date: `row` has become `row'` over `below'`. -/
structure Edited (tree : IndexBtreePhysicalTree) (height : Nat) (below row : Level)
    (levels : List Level) (tree' : IndexBtreePhysicalTree) (below' row' : Level) : Prop where
  written : Rewritten tree (below ++ (row ++ levels.flatten)) tree'
    (below' ++ (row' ++ levels.flatten))
  core : below'.map (·.core) = below.map (·.core)
  lists : row'.flatMap (·.down) = below'.map (·.up)
  fits : LevelFits height levels.isEmpty row'
  numbers : ∃ taken ≤ 1, tree'.nextPageNumber = advance tree.nextPageNumber taken

theorem Climbed.tower (h : Climbed tree height row levels tree' row' levels') :
    Tower tree' height row' levels' := by
  refine ⟨h.written.sound, ?_, h.written.stored, h.written.numbers⟩
  rw [h.written.setup.root]
  exact h.above

theorem Edited.climbed (h : Edited tree height below row levels tree' below' row')
    (hc : Climbed tree' (height + 1) row' levels tree'' row'' levels') :
    Climbed tree height below (row :: levels) tree'' below' (row'' :: levels') := by
  obtain ⟨here, hone, hhere⟩ := h.numbers
  obtain ⟨above, hmany, habove⟩ := hc.grown.numbers
  refine ⟨h.written.beside hc.written, ⟨?_, ?_, ?_⟩, h.core, rfl, ⟨?_, ?_⟩⟩
  · rw [down_of_core hc.core, h.lists]
  · rw [hc.empty]
    exact h.fits.of_core hc.core
  · rw [← h.written.setup.root]
    exact hc.above
  · exact Nat.succ_le_succ hc.grown.height
  · refine ⟨here + above, ?_, by rw [habove, hhere, advance_add]⟩
    rw [length_cons]
    omega

/-! ## A page stored in place -/

section InPlace

variable {rest : List UInt64}

/-- A page that loses no fences stays wide enough. -/
theorem Focus.wide (hf : Focus row levels U old V path X p Y us vs rest)
    (h : Stale tree height (row :: levels) U old new V holder path)
    (hlength : old.length ≤ new.length) (htop : levels.isEmpty = true) :
    2 ≤ (us ++ (new.map Prod.fst ++ vs)).length := by
  have hwide := h.above.2.1.wide htop p hf.mem
  rw [hf.cells] at hwide
  simp only [length_append, length_map] at hwide ⊢
  omega

/-- The row below is listed once the page has its new fences. -/
theorem Pending.lists (h : Pending tree height below (row :: levels) U e new V holder path)
    (hf : Focus row levels U [e] V path X p Y us vs rest) (hholder : p.pageNumber = holder) :
    below.map (·.up) = (X ++ p.refenced tree.pageSize us new vs :: Y).flatMap (·.down) := by
  rw [h.entries, hf.down_refenced]
  rw [hholder]
  exact h.stale.owned.2

/-- Pages `Z` are stored in the place of the page, whose entry the level above
still has. -/
theorem Focus.pending (hf : Focus row levels U [e] V path X p Y us vs rest)
    (h : Stale tree height (row :: levels) U [e] new V holder path)
    (hwritten : Rewritten tree (below ++ (row ++ levels.flatten)) tree'
      (below' ++ ((X ++ (Z ++ Y')) ++ levels.flatten)))
    (hY : Y'.map (·.up) = Y.map (·.up))
    (hcells : Z.flatMap (·.cells) = us ++ (new.map Prod.fst ++ vs)) (hZ : Z ≠ [])
    (hne : ∀ z ∈ Z, z.cells ≠ []) (hparent : ∀ z ∈ Z, z.parentPageNumber = p.parentPageNumber) :
    Pending tree' (height + 1) (X ++ (Z ++ Y')) levels (X.map (·.up)) p.up (Z.map (·.up))
      (Y.map (·.up)) p.parentPageNumber rest := by
  have hnodup := hwritten.numbers
  rw [pageNumbers_append] at hnodup
  refine ⟨hwritten.sound, hf.next h hwritten.setup.root ?_ hcells hZ hne hparent, ?_, ?_,
    hnodup.of_append_right⟩
  · exact fun b hb => hwritten.stored b (by simp [hb])
  · rw [map_append, map_append, hY]
  · exact fun b hb => hwritten.stored b (mem_append_right _ hb)

theorem Pending.in_place (h : Pending tree height below (row :: levels) U e new V holder path)
    (hf : Focus row levels U [e] V path X p Y us vs rest) (hholder : p.pageNumber = holder)
    (hq : q = p.refenced tree.pageSize us new vs) (hb : Buildable q tree.pageSize) :
    Edited tree height below row levels (store tree q) below (X ++ q :: Y) ∧
      Pending (store tree q) (height + 1) (X ++ q :: Y) levels (X.map (·.up)) p.up [q.up]
        (Y.map (·.up)) p.parentPageNumber rest := by
  subst hq
  have hwritten := one_written (q := p.refenced tree.pageSize us new vs) h.sound h.stored h.numbers
    hf.row rfl rfl hb
  have hlength : [e].length ≤ new.length := length_pos_iff.mpr h.stale.owned.1
  refine ⟨⟨hwritten, rfl, (h.lists hf hholder).symm, ?_, 0, Nat.zero_le 1, rfl⟩, ?_⟩
  · exact hf.levelFits h.stale (hf.wide h.stale hlength)
  · exact hf.pending h.stale (Z := [_]) hwritten rfl (flatMap_singleton _ _) (cons_ne_nil _ _)
      (forall_mem_singleton.mpr (Focus.refenced_ne_nil h.stale)) (forall_mem_singleton.mpr rfl)

end InPlace

/-! ## What a split writes -/

namespace IndexBtreePageBody

/-- A page moved below another parent. -/
def under (p : IndexBtreePageBody) (parent : UInt64) : IndexBtreePageBody :=
  { p with parentPageNumber := parent }

/-- The left half of a split keeps the page's number. -/
def leftHalf (p : IndexBtreePageBody) (next : UInt64)
    (front : List IndexBtreeCell) : IndexBtreePageBody :=
  { p with rightSiblingPageNumber := next, cells := front }

def rightHalf (p : IndexBtreePageBody) (index : TypedUuid)
    (kind : IndexBtreePageKind) (next : UInt64) (back : List IndexBtreeCell) :
    IndexBtreePageBody :=
  { indexUuid := index
    pageNumber := next
    parentPageNumber := p.parentPageNumber
    leftSiblingPageNumber := p.pageNumber
    rightSiblingPageNumber := p.rightSiblingPageNumber
    pageKind := kind
    treeLevel := p.treeLevel
    cells := back }

/-- One of the two pages that take over the cells of the root. -/
def rootHalf (p : IndexBtreePageBody) (index : TypedUuid)
    (kind : IndexBtreePageKind) (number left right : UInt64)
    (cells : List IndexBtreeCell) : IndexBtreePageBody :=
  { indexUuid := index
    pageNumber := number
    parentPageNumber := p.pageNumber
    leftSiblingPageNumber := left
    rightSiblingPageNumber := right
    pageKind := kind
    treeLevel := p.treeLevel
    cells }

/-- The root one level higher, over two pages. -/
def raisedOver (p left right : IndexBtreePageBody) : IndexBtreePageBody :=
  { p with
    parentPageNumber := 0
    leftSiblingPageNumber := 0
    rightSiblingPageNumber := 0
    treeLevel := p.treeLevel + 1
    cells := insertCellSorted (insertCellSorted [] (fenceCellForPage left))
      (fenceCellForPage right) }

end IndexBtreePageBody

/-- A row whose first page has another left neighbour. -/
def relinked (pageSize : UInt32) (left : UInt64) : Level → Level
  | [] => []
  | y :: Y => { y.settled pageSize with leftSiblingPageNumber := left } :: Y

/-! In a tree the pages a split makes get the next numbers. -/

section Halves

variable (tree : IndexBtreePhysicalTree) (p : IndexBtreePageBody) (kind : IndexBtreePageKind)

abbrev IndexBtreePageBody.keptHalf := p.leftHalf tree.nextPageNumber

abbrev IndexBtreePageBody.nextHalf := p.rightHalf tree.indexUuid kind tree.nextPageNumber

abbrev IndexBtreePageBody.newLeft :=
  p.rootHalf tree.indexUuid kind tree.nextPageNumber 0 (bump tree).nextPageNumber

abbrev IndexBtreePageBody.newRight :=
  p.rootHalf tree.indexUuid kind (bump tree).nextPageNumber tree.nextPageNumber 0

abbrev behind := relinked tree.pageSize tree.nextPageNumber

end Halves

/-- The children of two pages below their parents. -/
def adopted (m n : UInt64) (lefts rights : Level) : Level :=
  lefts.map (·.under m) ++ rights.map (·.under n)

theorem hasDeletedCells_eq_false_iff :
    hasDeletedCells page = false ↔ ∀ c ∈ page.cells, c.deleted = false := by
  simp [hasDeletedCells, liveCellCount]

theorem storeParent_ok (hlive : ∀ c ∈ page.cells, c.deleted = false)
    (h : Returns (storeParent path page result climb propagate) tree r tree') :
    Buildable page tree.pageSize ∧ Returns (climb page result) (store tree page) r tree' ∨
      Returns (splitInternalPage path page page.cells result propagate) tree r
        tree' := by
  have h := returns_get_bind.mp h
  split at h
  · next staged hstaged =>
    obtain ⟨hb, rfl⟩ := stagePhysicalPage_ok_iff.mp hstaged
    exact .inl ⟨hb, h⟩
  · rw [hasDeletedCells_eq_false_iff.mpr hlive] at h
    exact .inr (returns_guard.mp h).2

theorem splitInternalPage_ok (hcells : Ascending cells)
    (h : Returns (splitInternalPage path page cells result propagate) tree r tree') :
    page.pageKind = .root ∧ Returns (splitInternalRoot page cells result) tree r tree' ∨
      page.pageKind ≠ .root ∧ Returns (splitInternalNonRoot page cells result propagate) tree r
          tree' := by
  rw [splitInternalPage, sortCells_of_ascending hcells] at h
  obtain ⟨-, h⟩ := returns_guard.mp h
  split at h
  · next hroot => exact .inl ⟨hroot, h⟩
  · next hroot => exact .inr ⟨hroot, (returns_guard.mp h).2⟩

/-- The page behind a page, with its left link moved. -/
theorem returns_fetchOldRight (hlink : sibling = firstOr (·.pageNumber) Y 0)
    (hstored : ∀ y ∈ Y, Stored tree y) :
    Returns (fetchOldRight sibling left) tree ((relinked tree.pageSize left Y).take 1) tree := by
  rw [fetchOldRight]
  cases Y with
  | nil =>
    have hzero : sibling = 0 := hlink
    rw [if_pos hzero]
    exact returns_pure.mpr ⟨rfl, rfl⟩
  | cons y Y =>
    have hy := hstored y mem_cons_self
    have hne : sibling ≠ 0 := by
      rw [hlink]
      exact hy.built.fits.number
    rw [if_neg hne, hy.returns_fetch_bind hlink.symm]
    exact returns_pure.mpr ⟨rfl, rfl⟩

/-- The links of a page take no part in whether it can be built. -/
theorem Buildable.linked {pageSize : UInt32} (h : Buildable page pageSize)
    (parent left : UInt64) (free : UInt32) : Buildable { page with
      parentPageNumber := parent
      leftSiblingPageNumber := left
      freeSpaceBytes := free } pageSize :=
  ⟨h.index, ⟨h.fits.number, h.fits.kind, h.fits.cells, h.fits.ordered⟩, h.header, h.room⟩

theorem buildable_relinked (hstored : ∀ y ∈ Y, Stored tree y) :
    ∀ b ∈ (relinked tree.pageSize left Y).take 1, Buildable b tree.pageSize := by
  cases Y with
  | nil => exact forall_mem_nil _
  | cons y Y => exact forall_mem_singleton.mpr ((hstored y mem_cons_self).built.linked _ _ _)

/-- The children named by a list of fences, moved below another parent. -/
theorem returns_stageChildParentUpdates
    (hchildren : pageNumbers children = fences.map (·.childPageNumber))
    (hstored : ∀ c ∈ children, Stored tree c) :
    Returns (stageChildParentUpdates parent fences) tree
      ((children.map (·.under parent)).map (·.laidOut tree.pageSize)) tree := by
  induction fences generalizing children with
  | nil =>
    obtain rfl : children = [] := map_eq_nil_iff.mp hchildren
    exact returns_pure.mpr ⟨rfl, rfl⟩
  | cons fence fences ih =>
    obtain ⟨c, children, rfl, hnumber, hrest⟩ := List.map_eq_cons_iff.mp hchildren
    obtain ⟨hc, hstored⟩ := forall_mem_cons.mp hstored
    have hb : Buildable ((c.settled tree.pageSize).under parent) tree.pageSize :=
      hc.built.linked _ _ _
    rw [stageChildParentUpdates, hc.returns_fetch_bind hnumber]
    refine returns_bind.mpr ⟨_, tree, returns_stagePage.mpr ⟨⟨hb, rfl⟩, rfl⟩, ?_⟩
    exact returns_bind.mpr ⟨_, tree, ih hrest hstored, returns_pure.mpr ⟨rfl, rfl⟩⟩

theorem buildable_adopted (hchildren : ∀ c ∈ lefts ++ rights, Stored tree c)
    (hothers : ∀ b ∈ others, Buildable b tree.pageSize) :
    ∀ b ∈ adopted m n lefts rights ++ others, Buildable b tree.pageSize := by
  obtain ⟨hlefts, hrights⟩ := forall_mem_append.mp hchildren
  rw [forall_mem_append, adopted, forall_mem_append, forall_mem_map, forall_mem_map]
  exact ⟨⟨fun c hc => (hlefts c hc).built.linked _ _ _,
    fun c hc => (hrights c hc).built.linked _ _ _⟩, hothers⟩

theorem returns_stagePages_bind {k : List IndexBtreePageBodyResult →
    TreeM IndexBtreePhysicalInsertResult} :
    Returns (stagePages others >>= k) tree r tree' ↔ (∀ b ∈ others, Buildable b tree.pageSize) ∧
      Returns (k (others.map (·.laidOut tree.pageSize))) tree r tree' := by
  constructor
  · intro h
    obtain ⟨staged, t, hstaged, h⟩ := returns_bind.mp h
    obtain ⟨⟨hb, rfl⟩, rfl⟩ := returns_stagePages.mp hstaged
    exact ⟨hb, h⟩
  · rintro ⟨hb, h⟩
    exact (Returns.bind_iff (returns_stagePages.mpr ⟨⟨hb, rfl⟩, rfl⟩)).mpr h

/-- Pages are staged and published before the rest of a call. -/
theorem returns_store_bind : Returns (do
      let staged ← stagePages others
      publishPages staged
      k) tree r tree' ↔
      (∀ b ∈ others, Buildable b tree.pageSize) ∧ Returns k (storeAll tree others) r tree' := by
  refine returns_stagePages_bind.trans (and_congr_right fun _ => ?_)
  exact ((returns_publishPages_laidOut (u := ()) rfl).mpr rfl).bind_iff

/-- The children of two pages are published in front of the pages. -/
theorem returns_adopt_bind (hlefts : pageNumbers lefts = front.map (·.childPageNumber))
    (hrights : pageNumbers rights = back.map (·.childPageNumber))
    (hchildren : ∀ c ∈ lefts ++ rights, Stored tree c) : Returns (do
      let leftChildren ← stageChildParentUpdates m front
      let rightChildren ← stageChildParentUpdates n back
      let staged ← stagePages others
      publishPages (leftChildren ++ rightChildren)
      publishPages staged
      k) tree r tree' ↔
      (∀ b ∈ others, Buildable b tree.pageSize) ∧
        Returns k (storeAll tree (adopted m n lefts rights ++ others)) r tree' := by
  obtain ⟨hleft, hright⟩ := forall_mem_append.mp hchildren
  rw [(returns_stageChildParentUpdates hlefts hleft).bind_iff,
    (returns_stageChildParentUpdates hrights hright).bind_iff, ← map_append, storeAll_append]
  refine returns_stagePages_bind.trans (and_congr_right fun _ => ?_)
  refine ((returns_publishPages_laidOut (u := ()) rfl).mpr rfl).bind_iff.trans ?_
  exact ((returns_publishPages_laidOut (u := ()) storeAll_pageSize.symm).mpr rfl).bind_iff

/-- A cut of a page that stays where it is. -/
abbrev HalfCut (tree : IndexBtreePhysicalTree) (page : IndexBtreePageBody)
    (kind : IndexBtreePageKind) : List IndexBtreeCell → List IndexBtreeCell →
    List IndexBtreeCell → Prop :=
  fun cells => Cut { page with rightSiblingPageNumber := tree.nextPageNumber }
    (page.nextHalf tree kind []) cells tree.pageSize

/-- A cut of the root, whose halves are both new. -/
abbrev RootCut (tree : IndexBtreePhysicalTree) (page : IndexBtreePageBody)
    (kind : IndexBtreePageKind) : List IndexBtreeCell → List IndexBtreeCell →
    List IndexBtreeCell → Prop :=
  fun cells => Cut (page.newLeft tree kind []) (page.newRight tree kind []) cells tree.pageSize

theorem buildable_halves {kind : IndexBtreePageKind} (h : HalfCut tree page kind cells front back)
    (hstored : ∀ y ∈ Y, Stored tree y) :
    ∀ b ∈ page.keptHalf tree front :: page.nextHalf tree kind back ::
        (behind tree Y).take 1, Buildable b tree.pageSize := by
  obtain ⟨-, -, hl, hr⟩ := h.sound
  exact forall_mem_cons.mpr ⟨hl, forall_mem_cons.mpr ⟨hr, buildable_relinked hstored⟩⟩

/-- The children of the two halves, and the halves with the page behind them,
are stored before the split is carried on. -/
theorem returns_splitInternalNonRoot (h : HalfCut tree page .internal cells front back)
    (hlink : page.rightSiblingPageNumber = firstOr (·.pageNumber) Y 0)
    (hstored : ∀ y ∈ Y, Stored tree y) (hlefts : pageNumbers lefts = front.map (·.childPageNumber))
    (hrights : pageNumbers rights = back.map (·.childPageNumber))
    (hchildren : ∀ c ∈ lefts ++ rights, Stored tree c) :
    Returns (splitInternalNonRoot page cells result propagate) tree r tree' ↔
      Returns (propagate (page.keptHalf tree front) (page.nextHalf tree .internal back)
        (splitRecorded result tree.rootPageNumber (page.keptHalf tree front)
          (page.nextHalf tree .internal back)))
        (storeAll (bump tree) (adopted page.pageNumber tree.nextPageNumber lefts rights ++
          (page.keptHalf tree front :: page.nextHalf tree .internal back ::
            (behind tree Y).take 1))) r tree' := by
  rw [splitInternalNonRoot, returns_takePageNumber_bind, returns_get_bind]
  refine Iff.trans (Returns.bind_iff (Cut.returns h rfl)) ?_
  refine (Returns.bind_iff (returns_fetchOldRight hlink
    fun y hy => stored_bump (hstored y hy))).trans ?_
  exact (returns_adopt_bind hlefts hrights fun c hc => stored_bump (hchildren c hc)).trans
      (and_iff_right (buildable_halves h hstored))

theorem exists_cut_splitInternalNonRoot
    (h : Returns (splitInternalNonRoot page cells result propagate) tree r tree') :
    ∃ front back, HalfCut tree page .internal cells front back := by
  rw [splitInternalNonRoot, returns_takePageNumber_bind, returns_get_bind] at h
  have hcut := exists_cut_of_returns h
  exact hcut

theorem returns_splitInternalRoot (h : RootCut tree page .internal cells front back)
    (hlefts : pageNumbers lefts = front.map (·.childPageNumber))
    (hrights : pageNumbers rights = back.map (·.childPageNumber))
    (hchildren : ∀ c ∈ lefts ++ rights, Stored tree c) {left : IndexBtreePageBody}
    (hleft : left = page.newLeft tree .internal front)
    (hright : right = page.newRight tree .internal back) :
    Returns (splitInternalRoot page cells result) tree r tree' ↔
      (∀ b ∈ [left, right, page.raisedOver left right], Buildable b tree.pageSize) ∧
      { splitRecorded result page.pageNumber left right with
          rootSplitPerformed := true } = r ∧
      storeAll (bump (bump tree)) (adopted tree.nextPageNumber (bump tree).nextPageNumber lefts
        rights ++ [left, right, page.raisedOver left right]) = tree' := by
  subst hleft hright
  rw [splitInternalRoot, returns_takePageNumber_bind, returns_takePageNumber_bind, returns_get_bind]
  refine Iff.trans (Returns.bind_iff (Cut.returns h rfl)) ?_
  exact (returns_adopt_bind hlefts hrights fun c hc => stored_bump
    (stored_bump (hchildren c hc))).trans (and_congr_right fun _ => returns_pure)

theorem exists_cut_splitInternalRoot
    (h : Returns (splitInternalRoot page cells result) tree r tree') :
    ∃ front back, RootCut tree page .internal cells front back := by
  rw [splitInternalRoot, returns_takePageNumber_bind, returns_takePageNumber_bind,
    returns_get_bind] at h
  have hcut := exists_cut_of_returns h
  exact hcut

end ScratchBird.Btree
