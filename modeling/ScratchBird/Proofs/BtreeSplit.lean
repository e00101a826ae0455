import ScratchBird.Proofs.BtreeClimb

/-!
# Splitting pages

A page that has grown too large gives way to two. Its children are divided
between the halves, the page behind it gets another left neighbour, and the
entry of the page in the level above gives way to two entries. The root is
different: both halves are new pages, and the root goes one level up.
-/

namespace ScratchBird.Btree

open Lib List

variable {tree tree' : IndexBtreePhysicalTree} {below row X Y Cx Cl Cr Cy upper bodies : Level}
  {p q left right : IndexBtreePageBody} {us vs front back : List IndexBtreeCell} {pageSize : UInt32}
  {m n prev next holder root : UInt64} {P : IndexBtreePageBody → Prop} {height : Nat}
  {levels : List Level} {U new V : List Listing} {e : Listing} {path rest : List UInt64}
  {index : TypedUuid} {kind : IndexBtreePageKind} {result r : IndexBtreePhysicalInsertResult}

/-! ## The row around a split page -/

theorem relinked_map {α : Type} (f : IndexBtreePageBody → α) (hf : ∀ y : IndexBtreePageBody,
      f { y.settled pageSize with leftSiblingPageNumber := n } = f y) :
    (relinked pageSize n Y).map f = Y.map f := by
  cases Y with
  | nil => rfl
  | cons y Y => rw [relinked, map_cons, map_cons, hf]

theorem numbers_relinked :
    pageNumbers (relinked pageSize n Y) = pageNumbers Y := relinked_map _ fun _ => rfl

theorem up_relinked :
    (relinked pageSize n Y).map (·.up) = Y.map (·.up) := relinked_map _ fun _ => rfl

theorem down_relinked : (relinked pageSize n Y).flatMap (·.down) = Y.flatMap (·.down) := by
  rw [flatMap_def, flatMap_def, relinked_map _ fun _ => rfl]

section

variable (hP : ∀ y, P y → P { y.settled pageSize with leftSiblingPageNumber := n })
include hP

/-- A relinked row has the pages of the row but for their left links. -/
theorem forall_relinked (h : ∀ y ∈ Y, P y) : ∀ y ∈ relinked pageSize n Y, P y := by
  cases Y with
  | nil => exact h
  | cons y Y =>
    obtain ⟨hy, hY⟩ := forall_mem_cons.mp h
    exact forall_mem_cons.mpr ⟨hP y hy, hY⟩

theorem forall_halves (hl : P left) (hr : P right) (h : ∀ z ∈ X ++ p :: Y, P z) :
    ∀ z ∈ X ++ ([left, right] ++ relinked pageSize n Y), P z := by
  intro z hz
  rcases mem_append.mp hz with hX | hz
  · exact h z (mem_append_left _ hX)
  · rcases mem_append.mp hz with hz | hY
    · exact forall_mem_cons.mpr ⟨hl, forall_mem_singleton.mpr hr⟩ z hz
    · refine forall_relinked hP (fun y hy => h y ?_) z hY
      exact mem_append_right _ (mem_cons_of_mem _ hy)

end

theorem mem_relinked {y : IndexBtreePageBody} (h : y ∈ relinked pageSize n Y) :
    y ∈ (relinked pageSize n Y).take 1 ∨ y ∈ Y := by
  cases Y with
  | nil => exact .inr h
  | cons z Y =>
    rcases mem_cons.mp h with rfl | hY
    · exact .inl mem_cons_self
    · exact .inr (mem_cons_of_mem _ hY)

theorem linked_relinked (h : PageLinks prev Y next) : PageLinks n (relinked pageSize n Y) next := by
  cases Y with
  | nil => trivial
  | cons y Y => exact ⟨rfl, h.2⟩

/-- Two pages in the place of one. -/
theorem linked_halves (h : PageLinks prev (X ++ p :: Y) next)
    (hnumber : left.pageNumber = p.pageNumber)
    (hleft : left.leftSiblingPageNumber = p.leftSiblingPageNumber)
    (hinner : left.rightSiblingPageNumber = right.pageNumber)
    (hback : right.leftSiblingPageNumber = p.pageNumber)
    (hright : right.rightSiblingPageNumber = p.rightSiblingPageNumber) :
    PageLinks prev (X ++ left :: right :: relinked pageSize right.pageNumber Y) next := by
  have hsplit := linked_append.mp h
  obtain ⟨hX, hpl, hpr, hY⟩ := hsplit
  have hfirst : firstOr (·.pageNumber) (relinked pageSize right.pageNumber Y)
      next = firstOr (·.pageNumber) Y next := by
    cases Y with
    | nil => rfl
    | cons y Y => rfl
  refine linked_append.mpr ⟨?_, ?_, ?_, ?_, ?_, ?_⟩
  · have : firstOr (·.pageNumber) (left :: right :: relinked pageSize right.pageNumber Y) next =
        firstOr (·.pageNumber) (p :: Y) next := hnumber
    rw [this]
    exact hX
  · exact hleft.trans hpl
  · exact hinner
  · exact hback.trans hnumber.symm
  · exact hright.trans (hpr.trans hfirst.symm)
  · exact linked_relinked hY

/-! ## Children under new parents -/

section Children

variable {children : Level}

section

variable (h : children.map (·.up) = front.map fun c => (c, m))
include h

theorem fences_of_entries : children.map fenceCellForPage = front := by
  have hfst := congrArg (List.map Prod.fst) h
  rw [map_up_fst, map_map] at hfst
  rw [hfst]
  exact map_id _

theorem entries_under : (children.map (·.under n)).map (·.up) = front.map fun c => (c, n) := by
  rw [← fences_of_entries h, map_map, map_map]
  rfl

theorem numbers_of_entries : pageNumbers children = front.map (·.childPageNumber) := by
  rw [← fences_of_entries h, map_map]
  rfl

end

theorem core_adopted : (adopted m n Cl Cr).map (·.core) = (Cl ++ Cr).map (·.core) := by
  rw [adopted, map_append, map_append, map_map, map_map]
  rfl

theorem numbers_adopted : pageNumbers (adopted m n Cl Cr) = pageNumbers (Cl ++ Cr) := by
  rw [adopted, pageNumbers, map_append, map_map, map_map, pageNumbers, map_append]
  rfl

end Children

/-! ## A page that is not the root -/

theorem LevelFits.halves (h : LevelFits height false (X ++ p :: Y))
    (hq : q = p.refenced pageSize us new vs) (hfront : front ≠ [])
    (hback : back ≠ []) (hlive : ∀ c ∈ front ++ back, c.deleted = false) :
    LevelFits height false (X ++ ([q.leftHalf n front,
      q.rightHalf index .internal n back] ++ relinked pageSize n Y)) := by
  subst hq
  have hp : p ∈ X ++ p :: Y := by simp
  refine ⟨?_, ?_, ?_, ?_, ?_, fun htop => absurd htop Bool.false_ne_true⟩
  · exact forall_halves (fun _ hy => hy) (h.level p hp) (h.level p hp) h.level
  · exact forall_halves (fun _ hy => hy) (h.kind p hp) rfl h.kind
  · exact linked_halves h.linked rfl rfl rfl rfl rfl
  · exact forall_halves (fun _ hy => hy) hfront hback h.fences
  · refine forall_halves (fun _ hy => hy) ?_ ?_ h.live
    · exact fun c hc => hlive c (mem_append_left _ hc)
    · exact fun c hc => hlive c (mem_append_right _ hc)

section

variable (hleft : left = q.leftHalf n front) (hright : right = q.rightHalf index kind n back)
include hleft hright

/-- The pages of a split, written over those of the row and of its children. -/
theorem halves_written (hn : n = tree.nextPageNumber) (hi : index = tree.indexUuid)
    (hsound : Sound tree) (hstored : ∀ b ∈ below ++ (row ++ upper), Stored tree b)
    (hnodup : (pageNumbers (below ++ (row ++ upper))).Nodup)
    (hrow : row = X ++ p :: Y) (hnumber : q.pageNumber = p.pageNumber)
    (hqindex : q.indexUuid = p.indexUuid) (hbelow : below = Cx ++ ((Cl ++ Cr) ++ Cy))
    (hbuilt : ∀ b ∈ adopted p.pageNumber n Cl Cr ++
        (left :: right :: (relinked tree.pageSize n Y).take 1), Buildable b tree.pageSize) :
    Rewritten tree (below ++ (row ++ upper)) (storeAll (bump tree) (adopted p.pageNumber n Cl Cr ++
        (left :: right :: (relinked tree.pageSize n Y).take 1)))
      ((Cx ++ (adopted p.pageNumber n Cl Cr ++ Cy)) ++
        ((X ++ ([left, right] ++ relinked tree.pageSize n Y)) ++ upper)) := by
  have hnext := (hbuilt right (by simp)).fits.number
  subst hbelow hrow hleft hright hi
  have hfresh := fresh_one hsound (hn ▸ hnext)
  rw [← hn] at hfresh
  -- the numbers are those from before and the one just taken
  have hperm : (pageNumbers (X ++ ([q.leftHalf n front, q.rightHalf tree.indexUuid kind n back] ++
      relinked tree.pageSize n Y))).Perm ([n] ++ pageNumbers (X ++ p :: Y)) := by
    rw [pageNumbers_append, pageNumbers_append, pageNumbers_append, numbers_relinked]
    show (pageNumbers X ++ q.pageNumber :: n :: pageNumbers Y).Perm
      (n :: (pageNumbers X ++ p.pageNumber :: pageNumbers Y))
    rw [hnumber]
    exact ((List.Perm.swap _ _ _).append_left _).trans perm_middle
  have hchildren : pageNumbers (Cx ++ (adopted p.pageNumber n Cl Cr ++ Cy)) =
      pageNumbers (Cx ++ ((Cl ++ Cr) ++ Cy)) := by
    simp only [pageNumbers_append, numbers_adopted]
  refine hfresh.rewritten_of_perm hstored hnodup (nodup_singleton _)
    (numbers_perm hchildren hperm) ?_ ?_ ?_
  · refine List.Sublist.append ?_ ?_
    · exact (List.sublist_append_left _ _).trans (List.sublist_append_right _ _)
    · refine List.Sublist.trans ?_ (List.sublist_append_left _ _)
      refine List.Sublist.trans ?_ (List.sublist_append_right _ _)
      exact ((List.take_sublist _ _).cons_cons _).cons_cons _
  · refine fun b hb => ⟨hbuilt b hb, ?_⟩
    have hindex := fun c hc => (hstored c hc).index
    revert b
    simp only [adopted, forall_mem_append, forall_mem_cons, forall_mem_map] at hindex ⊢
    obtain ⟨⟨-, ⟨hl, hr⟩, -⟩, ⟨-, hp, hY⟩, -⟩ := hindex
    refine ⟨⟨hl, hr⟩, hqindex.trans hp, rfl, fun b hb => ?_⟩
    exact forall_relinked (fun _ hy => hy) hY b (List.mem_of_mem_take hb)
  · intro b hb
    have hrel := @mem_relinked Y tree.pageSize n b
    grind

end

/-! ## The root -/

theorem raisedOver_cells
    (hlt : (fenceCellForPage left).locator < (fenceCellForPage right).locator) :
    (q.raisedOver left right).cells = [fenceCellForPage left, fenceCellForPage right] := by
  show insertCellSorted (insertCellSorted [] (fenceCellForPage left)) (fenceCellForPage right) = _
  rw [show insertCellSorted [] (fenceCellForPage left) = [fenceCellForPage left] from rfl,
    ← append_nil [fenceCellForPage left], insertCellSorted_append]
  · rfl
  · exact forall_mem_singleton.mpr hlt
  · simp

section

variable (hb : Buildable (q.raisedOver left right) pageSize) (hkind : q.pageKind = .root)
include hb hkind

/-- A root that could be stored above two pages has a level above theirs. -/
theorem raisedOver_level : (q.raisedOver left right).treeLevel.toNat = q.treeLevel.toNat + 1 := by
  have hmem : fenceCellForPage right ∈ (q.raisedOver left right).cells :=
    insertCellSorted_perm.mem_iff.mpr mem_cons_self
  have hinternal : isInternalLike (q.raisedOver left right) = true :=
    (hb.fits.cells _ hmem).highKey.symm
  have hne : q.treeLevel + 1 ≠ 0 := by
    intro hzero
    rw [isInternalLike] at hinternal
    simp [IndexBtreePageBody.raisedOver, hkind, hzero] at hinternal
  show (q.treeLevel + 1).toNat = _
  have hlt := q.treeLevel.toNat_lt
  have hone : (1 : UInt16).toNat = 1 := rfl
  have hzero : (0 : UInt16).toNat = 0 := rfl
  rw [ne_eq, ← UInt16.toNat_inj, UInt16.toNat_add] at hne
  rw [UInt16.toNat_add]
  omega

/-- The root over the two pages that took its cells. -/
theorem above_raisedOver (hlevel : q.treeLevel.toNat = height)
    (hlt : (fenceCellForPage left).locator < (fenceCellForPage right).locator)
    (hleft : left.parentPageNumber = q.pageNumber) (hright : right.parentPageNumber = q.pageNumber)
    (hroot : q.pageNumber = root) :
    Above root (height + 1) [left.up, right.up] [[q.raisedOver left right]] := by
  have hcells := @raisedOver_cells q left right hlt
  refine ⟨?_, ⟨?_, ?_, ?_, ?_, ?_, ?_⟩, ?_⟩
  · rw [flatMap_singleton, IndexBtreePageBody.down, hcells,
      IndexBtreePageBody.up, IndexBtreePageBody.up, hleft, hright]
    rfl
  · refine forall_mem_singleton.mpr ?_
    rw [raisedOver_level hb hkind, hlevel]
  · exact forall_mem_singleton.mpr hkind
  · exact ⟨rfl, rfl, trivial⟩
  · refine forall_mem_singleton.mpr ?_
    rw [hcells]
    exact cons_ne_nil _ _
  · refine forall_mem_singleton.mpr ?_
    rw [hcells]
    exact forall_mem_cons.mpr ⟨rfl, forall_mem_singleton.mpr rfl⟩
  · intro htop
    refine forall_mem_singleton.mpr ?_
    rw [hcells]
    exact Nat.le_refl 2
  · exact ⟨_, rfl, hroot⟩

end

theorem next_ne_bump_next : tree.nextPageNumber ≠ (bump tree).nextPageNumber := by
  show tree.nextPageNumber ≠ tree.nextPageNumber + 1
  have hone : (1 : UInt64).toNat = 1 := rfl
  rw [ne_eq, ← UInt64.toNat_inj, UInt64.toNat_add]
  omega

/-- The top level is the root alone. -/
theorem Focus.alone {old : List Listing} (hf : Focus row [] U old V path X p Y us vs rest)
    (h : Stale tree height [row] U old new V holder path) :
    X = [] ∧ Y = [] ∧ p.pageNumber = tree.rootPageNumber := by
  obtain ⟨f, hrow, hroot⟩ := h.above.2.2
  rw [hf.row] at hrow
  cases X with
  | nil =>
    obtain ⟨hp, hY⟩ := List.cons.inj hrow
    have hfence : fenceCellForPage p = f := congrArg Prod.fst hp
    refine ⟨rfl, map_eq_nil_iff.mp hY, ?_⟩
    rw [← hroot, ← hfence]
    rfl
  | cons x X =>
    obtain ⟨-, hrest⟩ := List.cons.inj hrow
    exact absurd hrest (by simp)

theorem raised_written (hsound : Sound tree)
    (hstored : ∀ b ∈ below ++ [p], Stored tree b) (hnodup : (pageNumbers (below ++ [p])).Nodup)
    (hnumber : q.pageNumber = p.pageNumber)
    (hqindex : q.indexUuid = p.indexUuid) (hbelow : below = Cl ++ Cr)
    (hleft : left = q.newLeft tree kind front) (hright : right = q.newRight tree kind back)
    (hbodies : bodies = adopted tree.nextPageNumber (bump tree).nextPageNumber Cl Cr ++
      [left, right, q.raisedOver left right])
    (hbuilt : ∀ b ∈ bodies, Buildable b tree.pageSize) :
    Rewritten tree (below ++ [p]) (storeAll (bump (bump tree)) bodies) bodies := by
  have hl := (hbuilt left (by simp [hbodies])).fits.number
  have hr := (hbuilt right (by simp [hbodies])).fits.number
  rw [hleft] at hl
  rw [hright] at hr
  have hfresh := (fresh_one hsound hl).bump hr
  subst hbelow
  have htop : (pageNumbers [left, right, q.raisedOver left right]).Perm
      ([(bump tree).nextPageNumber, tree.nextPageNumber] ++ pageNumbers [p]) := by
    rw [hleft, hright]
    show [_, _, q.pageNumber].Perm _
    rw [hnumber]
    exact List.Perm.swap _ _ _
  have hperm := @numbers_perm _ _ _ _ _ []
    (@numbers_adopted Cl Cr tree.nextPageNumber (bump tree).nextPageNumber) htop
  rw [append_nil, ← hbodies] at hperm
  refine hfresh.rewritten_of_perm hstored hnodup ?_ hperm
    (List.Sublist.refl _) ?_ (fun b hb => .inl hb)
  · rw [nodup_cons]
    refine ⟨fun hmem => next_ne_bump_next (mem_singleton.mp hmem).symm, ?_⟩
    exact nodup_singleton _
  · intro b hb
    refine ⟨hbuilt b hb, ?_⟩
    have hindex : ∀ c ∈ Cl ++ Cr ++ [p], c.indexUuid = tree.indexUuid :=
      fun c hc => (hstored c hc).index
    rw [hbodies, adopted] at hb
    simp only [mem_append, mem_map, mem_cons, not_mem_nil, or_false] at hb
    rcases hb with (⟨c, hc, rfl⟩ | ⟨c, hc, rfl⟩) | rfl | rfl | rfl
    · exact hindex c (by simp [hc])
    · exact hindex c (by simp [hc])
    · rw [hleft]
      rfl
    · rw [hright]
      rfl
    · exact hqindex.trans (hindex p (by simp))

/-! ## Up to the root -/

/-- What a page has to do about a child: take its new fence, or take the fences
of the two pages it was split into. -/
inductive Change where
  | fence (child : IndexBtreePageBody)
  | split (left right : IndexBtreePageBody)

namespace Change

def number : Change → UInt64
  | fence child => child.pageNumber
  | split left _ => left.pageNumber

def entries (holder : UInt64) : Change → List Listing
  | fence child => [(fenceCellForPage child, holder)]
  | split left right => [(fenceCellForPage left, holder), (fenceCellForPage right, holder)]

def carry (path : List UInt64) (result : IndexBtreePhysicalInsertResult) :
    Change → TreeM IndexBtreePhysicalInsertResult
  | fence child => updateParentFence path child result
  | split left right => propagateSplit path left right result

end Change

/-- The children of a row, with those of one page in two parts. -/
structure Children (tree : IndexBtreePhysicalTree) (below X : Level) (p : IndexBtreePageBody)
    (Y : Level) (front back : List IndexBtreeCell) (Cx Cl Cr Cy : Level) : Prop where
  row : below = Cx ++ ((Cl ++ Cr) ++ Cy)
  stored : ∀ c ∈ Cl ++ Cr, Stored tree c
  before : Cx.map (·.up) = X.flatMap (·.down)
  lefts : Cl.map (·.up) = front.map fun c => (c, p.pageNumber)
  rights : Cr.map (·.up) = back.map fun c => (c, p.pageNumber)
  after : Cy.map (·.up) = Y.flatMap (·.down)

section Carry

variable {change : Change}

theorem Focus.others (hf : Focus row levels U [e] V path X p Y us vs rest)
    (h : Stale tree height (row :: levels) U [e] new V holder path) :
    (∀ u ∈ us, u.childPageNumber ≠ e.1.childPageNumber) ∧
      ∀ v ∈ vs, v.childPageNumber ≠ e.1.childPageNumber := by
  have hnodup := h.children
  rw [hf.before, hf.after] at hnodup
  simp only [map_append, map_cons, map_map, singleton_append] at hnodup
  obtain ⟨-, hrest, hbefore⟩ := nodup_append'.mp hnodup
  constructor
  · intro u hu heq
    refine hbefore (mem_append_right _ (mem_map_of_mem hu)) ?_
    simp [heq]
  · intro v hv heq
    refine (nodup_cons.mp hrest).1 ?_
    exact mem_append_left _ (mem_map.mpr ⟨v, hv, heq⟩)

/-- A new fence for the entry stands where the old one stood. -/
theorem Focus.replaced {child : IndexBtreePageBody}
    (hf : Focus row levels U [e] V path X p Y us vs rest)
    (h : Stale tree height (row :: levels) U [e] [(fenceCellForPage child, holder)] V holder path)
    (hnumber : e.1.childPageNumber = child.pageNumber) :
    replaceFence child (p.settled tree.pageSize).cells = some (us ++ fenceCellForPage child :: vs) ∧
      sortCells (us ++ fenceCellForPage child :: vs) = us ++ fenceCellForPage child :: vs := by
  have hcells : p.cells = us ++ e.1 :: vs := hf.cells
  obtain ⟨hus, -⟩ := hf.others h
  rw [hnumber] at hus
  refine ⟨?_, sortCells_of_ascending (hf.ascending h)⟩
  show replaceFence child p.cells = _
  rw [hcells]
  exact replaceFence_append hus hnumber

/-- The page that holds the entry takes the new fences, in either case. -/
theorem carry_cons (h : Stale tree height (row :: levels) U [e] (change.entries holder) V holder
      path)
    (hf : Focus row levels U [e] V path X p Y us vs rest)
    (hnumber : e.1.childPageNumber = change.number) :
    Returns (change.carry path result) tree r tree' ↔ Returns (storeParent path
        (p.refenced tree.pageSize us (change.entries holder) vs) result
        (updateParentFence rest) (propagateSplit rest)) tree r tree' := by
  have hp := hf.stored h
  obtain ⟨hus, hvs⟩ := hf.others h
  rw [hnumber] at hus hvs
  have hcells : p.cells = us ++ e.1 :: vs := hf.cells
  rw [hf.path]
  cases change with
  | fence child =>
    obtain ⟨hreplaced, hsorted⟩ := hf.replaced h hnumber
    rw [Change.carry, updateParentFence, hp.returns_fetch_bind rfl]
    simp only [hreplaced, hsorted]
    rfl
  | split left right =>
    have hremoved : removeFence left.pageNumber
        (p.settled tree.pageSize).cells = some (us ++ vs) := by
      show removeFence left.pageNumber p.cells = _
      rw [hcells]
      exact removeFence_append hus hvs hnumber
    have hasc : Ascending (us ++ fenceCellForPage left :: fenceCellForPage right :: vs) :=
      hf.ascending h
    obtain ⟨-, hrest, hbefore⟩ := pairwise_append.mp hasc
    obtain ⟨hleft, hrest⟩ := pairwise_cons.mp hrest
    obtain ⟨hright, -⟩ := pairwise_cons.mp hrest
    have hfirst : insertCellSorted (us ++ vs) (fenceCellForPage left) =
        us ++ fenceCellForPage left :: vs := by
      refine insertCellSorted_append ?_ ?_
      · exact fun u hu => hbefore u hu _ (by simp)
      · exact fun v hv => le_of_lt (hleft v (by simp [hv]))
    have hsecond : insertCellSorted (us ++ fenceCellForPage left :: vs) (fenceCellForPage right) =
          us ++ fenceCellForPage left :: fenceCellForPage right :: vs := by
      have hinsert : insertCellSorted ((us ++ [fenceCellForPage left]) ++ vs)
          (fenceCellForPage right) =
            (us ++ [fenceCellForPage left]) ++ fenceCellForPage right :: vs := by
        refine insertCellSorted_append ?_ ?_
        · intro u hu
          rcases mem_append.mp hu with hu | hu
          · exact hbefore u hu _ (by simp)
          · rw [mem_singleton.mp hu]
            exact hleft _ (by simp)
        · exact fun v hv => le_of_lt (hright v hv)
      rw [append_assoc, append_assoc] at hinsert
      exact hinsert
    rw [Change.carry, propagateSplit, hp.returns_fetch_bind rfl]
    simp only [hremoved, hfirst, hsecond]
    rfl

theorem Pending.at_root (h : Pending tree height below [] U e (change.entries holder) V holder path)
    (hnumber : e.1.childPageNumber = change.number)
    (hr : Returns (change.carry path result) tree r tree') :
    ∃ below' levels', Climbed tree height below [] tree' below' levels' := by
  have hpath : path = [] := h.stale.path
  subst hpath
  cases change with
  | fence child =>
    obtain ⟨-, rfl⟩ := returns_pure.mp hr
    refine ⟨below, [], ⟨h.sound, SameSetup.refl tree, h.stored, h.numbers,
      fun b hb hn => ⟨hb, hn⟩⟩, ?_, rfl, rfl, ⟨Nat.zero_le 1, 0, Nat.zero_le _, rfl⟩⟩
    rw [h.entries]
    exact h.stale.top hnumber
  | split left right =>
    exact (returns_treeError.mp hr).elim

section

variable (h : Pending tree height below (row :: levels) U e new V holder path)
  (hf : Focus row levels U [e] V path X p Y us vs rest) (hholder : p.pageNumber = holder)
  (hq : q = p.refenced tree.pageSize us new vs)
include h hf hholder hq

/-- The children of a page that is split stand side by side. -/
theorem Pending.children (hparts : q.cells = front ++ back) :
    ∃ Cx Cl Cr Cy, Children tree below X p Y front back Cx Cl Cr Cy := by
  subst hq
  have hlists := h.lists hf hholder
  rw [flatMap_append, flatMap_cons] at hlists
  obtain ⟨Cx, others, rfl, hx, hlists⟩ := map_eq_append_iff.mp hlists
  obtain ⟨Cp, Cy, rfl, hp, hy⟩ := map_eq_append_iff.mp hlists
  rw [IndexBtreePageBody.down, hparts, map_append] at hp
  obtain ⟨Cl, Cr, rfl, hl, hr⟩ := map_eq_append_iff.mp hp
  refine ⟨Cx, Cl, Cr, Cy, rfl, fun c hc => h.stored c ?_, hx, hl, hr, hy⟩
  exact mem_append_left _ (mem_append_right _ (mem_append_left _ hc))

omit hholder in
/-- After the split the level above finds two entries in the place of one. -/
theorem Pending.halves (htop : levels.isEmpty = false)
    (hcut : HalfCut tree q .internal q.cells front back)
    (hc : Children tree below X p Y front back Cx Cl Cr Cy)
    (hleft : left = q.leftHalf n front) (hright : right = q.rightHalf index .internal n back)
    (hwritten : Rewritten tree (below ++ (row ++ levels.flatten)) tree'
      ((Cx ++ (adopted p.pageNumber n Cl Cr ++ Cy)) ++
        ((X ++ ([left, right] ++ relinked tree.pageSize n Y)) ++ levels.flatten)))
    (hnext : tree'.nextPageNumber = (bump tree).nextPageNumber) :
    Edited tree height below row levels tree' (Cx ++ (adopted p.pageNumber n Cl Cr ++ Cy))
        (X ++ ([left, right] ++ relinked tree.pageSize n Y)) ∧
      Pending tree' (height + 1) (X ++ ([left, right] ++ relinked tree.pageSize n Y)) levels
        (X.map (·.up)) p.up [left.up, right.up] (Y.map (·.up)) p.parentPageNumber rest := by
  obtain ⟨hfront, hback, -⟩ := hcut.sound
  have hfits := h.stale.above.2.1
  rw [hf.row, htop] at hfits
  subst hq hleft hright
  have hcells : us ++ (new.map Prod.fst ++ vs) = front ++ back := hcut.parts
  refine ⟨⟨hwritten, ?_, ?_, ?_, 1, le_refl 1, hnext⟩,
    hf.pending h.stale hwritten up_relinked ?_ (cons_ne_nil _ _) ?_ ?_⟩
  · rw [hc.row]
    simp only [map_append, core_adopted]
  · have hleft : ((p.refenced tree.pageSize us new vs).leftHalf n front).down =
      front.map fun c => (c, p.pageNumber) := rfl
    have hright : ((p.refenced tree.pageSize us new vs).rightHalf index .internal n back).down =
      back.map fun c => (c, n) := rfl
    simp only [map_append, flatMap_append, flatMap_cons, flatMap_nil, append_nil, down_relinked,
      hc.before, hc.after, hleft, hright, adopted, entries_under hc.lefts, entries_under hc.rights]
  · rw [htop]
    exact hfits.halves rfl hfront hback (hcells ▸ hf.live h.stale)
  · rw [hcells, flatMap_cons, flatMap_singleton]
    rfl
  · exact forall_mem_cons.mpr ⟨hfront, forall_mem_singleton.mpr hback⟩
  · exact forall_mem_cons.mpr ⟨rfl, forall_mem_singleton.mpr rfl⟩

/-- What a split below the root writes, and what it leaves to the next level. -/
theorem Pending.inner_split (htop : levels.isEmpty = false)
    (hcut : HalfCut tree q .internal q.cells front back)
    (hleft : left = q.keptHalf tree front) (hright : right = q.nextHalf tree .internal back) :
    ∃ bodies below' row', (∀ {r tree'},
        Returns (splitInternalNonRoot q q.cells result (propagateSplit rest)) tree r tree' ↔
          Returns (propagateSplit rest left right
            (splitRecorded result tree.rootPageNumber left right))
            (storeAll (bump tree) bodies) r tree') ∧
      Edited tree height below row levels (storeAll (bump tree) bodies) below' row' ∧
      Pending (storeAll (bump tree) bodies) (height + 1) row' levels (X.map (·.up)) p.up
        ((Change.split left right).entries p.parentPageNumber) (Y.map (·.up)) p.parentPageNumber
        rest := by
  obtain ⟨Cx, Cl, Cr, Cy, hc⟩ := h.children hf hholder hq hcut.parts
  have hlinked := h.stale.above.2.1.linked
  rw [hf.row] at hlinked
  have hbehind : ∀ y ∈ Y, Stored tree y := by
    have hstored := h.stored
    rw [hf.row] at hstored
    exact fun y hy => hstored y (by simp [hy])
  have hwritten := halves_written hleft hright rfl rfl h.sound h.stored h.numbers hf.row
    (hq ▸ rfl) (hq ▸ rfl) hc.row
    (hleft ▸ hright ▸ buildable_adopted hc.stored (buildable_halves hcut hbehind))
  obtain ⟨hedit, hpending⟩ := h.halves hf hq htop hcut hc hleft hright hwritten
    storeAll_nextPageNumber
  subst hq hleft hright
  exact ⟨_, _, _, returns_splitInternalNonRoot hcut (linked_append.mp hlinked).2.2.1 hbehind
    (numbers_of_entries hc.lefts) (numbers_of_entries hc.rights) hc.stored, hedit, hpending⟩

end

/-- The root is split, and goes one level up. -/
theorem Pending.raised (h : Pending tree height below [[p]] U e new V holder path)
    (hf : Focus [p] [] U [e] V path [] p [] us vs rest) (hroot : p.pageNumber = tree.rootPageNumber)
    (hq : q = p.refenced tree.pageSize us new vs)
    (hcut : RootCut tree q .internal q.cells front back)
    (hc : Children tree below [] p [] front back [] Cl Cr [])
    (hleft : left = q.newLeft tree .internal front)
    (hright : right = q.newRight tree .internal back)
    (hbodies : bodies = adopted tree.nextPageNumber (bump tree).nextPageNumber Cl Cr ++
      [left, right, q.raisedOver left right])
    (hbuilt : ∀ b ∈ bodies, Buildable b tree.pageSize) :
    Climbed tree height below [[p]] (storeAll (bump (bump tree)) bodies)
      (adopted tree.nextPageNumber (bump tree).nextPageNumber Cl Cr)
      [[left, right], [q.raisedOver left right]] := by
  obtain ⟨hfront, hback, -⟩ := hcut.sound
  have hbelow : below = Cl ++ Cr := by simpa using hc.row
  have hb := hbuilt (q.raisedOver left right) (by simp [hbodies])
  have hwritten := raised_written h.sound h.stored h.numbers (hq ▸ rfl) (hq ▸ rfl) hbelow hleft
    hright hbodies hbuilt
  subst hq hbelow hbodies
  have hover : left.cells ++ right.cells = us ++ (new.map Prod.fst ++ vs) := by
    rw [hleft, hright]
    exact hcut.parts.symm
  have hne : ∀ z ∈ [left, right], z.cells ≠ [] := by
    rw [hleft, hright]
    exact forall_mem_cons.mpr ⟨hfront, forall_mem_singleton.mpr hback⟩
  have hlt := hf.fence_lt h.stale hover (hne left (by simp)) (hne right (by simp))
  have hlive := hf.live h.stale
  rw [← hover] at hlive
  have hfits := h.stale.above.2.1
  have hp : p ∈ [p] := mem_singleton_self p
  have hlevel := hfits.level p hp
  subst hleft hright
  refine ⟨hwritten, ⟨?_, ⟨?_, ?_, ?_, ?_, ?_, nofun⟩, ?_⟩, ?_, rfl,
    ⟨le_refl 2, 2, le_refl 2, storeAll_nextPageNumber⟩⟩
  · rw [flatMap_cons, flatMap_singleton, adopted, map_append, entries_under hc.lefts,
      entries_under hc.rights]
    rfl
  · exact forall_mem_cons.mpr ⟨hlevel, forall_mem_singleton.mpr hlevel⟩
  · exact forall_mem_cons.mpr ⟨rfl, forall_mem_singleton.mpr rfl⟩
  · exact ⟨rfl, rfl, rfl, rfl, trivial⟩
  · exact hne
  · refine forall_mem_cons.mpr ⟨?_, forall_mem_singleton.mpr ?_⟩
    · exact fun c hc => hlive c (mem_append_left _ hc)
    · exact fun c hc => hlive c (mem_append_right _ hc)
  · exact above_raisedOver hb (hfits.kind p hp) hlevel hlt rfl rfl hroot
  · rw [core_adopted]

theorem Pending.root_split (h : Pending tree height below [row] U e new V holder path)
    (hf : Focus row [] U [e] V path X p Y us vs rest) (hholder : p.pageNumber = holder)
    (hq : q = p.refenced tree.pageSize us new vs)
    (hcut : RootCut tree q .internal q.cells front back)
    (hleft : left = q.newLeft tree .internal front)
    (hright : right = q.newRight tree .internal back) :
    ∃ bodies below' levels', (∀ {r tree'},
        Returns (splitInternalRoot q q.cells result) tree r tree' ↔
          (∀ b ∈ [left, right, q.raisedOver left right], Buildable b tree.pageSize) ∧
          { splitRecorded result q.pageNumber left right with rootSplitPerformed := true } = r ∧
          storeAll (bump (bump tree)) bodies = tree') ∧
      ((∀ b ∈ [left, right, q.raisedOver left right], Buildable b tree.pageSize) →
        Climbed tree height below [row] (storeAll (bump (bump tree)) bodies) below' levels') := by
  obtain ⟨Cx, Cl, Cr, Cy, hc⟩ := h.children hf hholder hq hcut.parts
  obtain ⟨rfl, rfl, hnumber⟩ := hf.alone h.stale
  obtain rfl : row = [p] := hf.row
  obtain rfl : Cx = [] := map_eq_nil_iff.mp hc.before
  obtain rfl : Cy = [] := map_eq_nil_iff.mp hc.after
  exact ⟨_, _, _, returns_splitInternalRoot hcut (numbers_of_entries hc.lefts)
    (numbers_of_entries hc.rights) hc.stored hleft hright, fun hbuilt => h.raised hf hnumber hq
      hcut hc hleft hright rfl (buildable_adopted hc.stored hbuilt)⟩

/-- A change is carried to the root. The induction is on the levels above the
row whose entry has changed. -/
theorem carry_ok (change : Change) (holder : UInt64)
    (h : Pending tree height below levels U e (change.entries holder) V holder path)
    (hnumber : e.1.childPageNumber = change.number)
    (hr : Returns (change.carry path result) tree r tree') :
    ∃ below' levels', Climbed tree height below levels tree' below' levels' := by
  induction levels generalizing change holder tree height below U V e path result with
  | nil => exact h.at_root hnumber hr
  | cons row levels ih =>
    obtain ⟨X, p, Y, us, vs, rest, hf, hholder⟩ := h.stale.focus
    have hr := (carry_cons h.stale hf hnumber).mp hr
    rcases storeParent_ok (hf.live h.stale) hr with ⟨hb, hr⟩ | hr
    · -- the page still fits
      obtain ⟨hedit, hpending⟩ := h.in_place hf hholder rfl hb
      obtain ⟨row', levels', hc⟩ := ih (.fence _) p.parentPageNumber hpending rfl hr
      exact ⟨_, _, hedit.climbed hc⟩
    · rcases splitInternalPage_ok (hf.ascending h.stale) hr with ⟨hroot, hr⟩ | ⟨hroot, hr⟩
      · obtain rfl := List.isEmpty_iff.mp ((hf.root_iff h.stale).mp hroot)
        obtain ⟨front, back, hcut⟩ := exists_cut_splitInternalRoot hr
        obtain ⟨bodies, below', levels', hreturns, hclimbed⟩ :=
          h.root_split hf hholder rfl hcut rfl rfl
        obtain ⟨hbuilt, -, rfl⟩ := hreturns.mp hr
        exact ⟨_, _, hclimbed hbuilt⟩
      · have htop := Bool.eq_false_iff.mpr (mt (hf.root_iff h.stale).mpr hroot)
        obtain ⟨front, back, hcut⟩ := exists_cut_splitInternalNonRoot hr
        obtain ⟨bodies, below', row', hreturns, hedit, hpending⟩ :=
          h.inner_split hf hholder rfl htop hcut rfl rfl
        obtain ⟨row'', levels', hc⟩ := ih (.split _ _) p.parentPageNumber hpending rfl
          (hreturns.mp hr)
        exact ⟨_, _, hedit.climbed hc⟩

end Carry

end ScratchBird.Btree
