import ScratchBird.Proofs.BtreeFences

/-!
# Leaves that change, merge or are built anew

What storing changed leaves makes of an ordered index, once their fences are
carried up: one leaf with other cells, two neighbours that exchange cells, two
neighbours merged into one, and a tree built from scratch out of live entries.
-/

namespace ScratchBird.Btree

open Lib List

variable {tree tree' t : IndexBtreePhysicalTree} {leaves A B row pages : Level}
  {c d x y x' y' m q : IndexBtreePageBody} {levels levels' : List Level} {path : List UInt64}
  {holder prev next : UInt64} {freeX freeY pageSize : UInt32}
  {cells cellsX cellsY : List IndexBtreeCell} {result r r₁ r₂ : IndexBtreePhysicalDeleteResult}
  {top : Bool} {index : TypedUuid}

/-! ## Leaves under fences brought up to date -/

section Leaves

variable {free : UInt32}

theorem listed_under {p : IndexBtreePageBody} {n : UInt64} (h : p.parentPageNumber = n) :
    (fenceCellForPage p, n) = p.up := by
  rw [← h]
  rfl

theorem Refenced.arranged (h : Refenced t 1 (row.map (·.up)) levels holder path tree' levels')
    (hwritten : Rewritten tree pages t (row ++ levels.flatten))
    (hfits : LeafFits levels.isEmpty row) : Arranged tree' row levels' := by
  have hall := hwritten.beside h.written
  refine ⟨⟨hall.sound, ?_, hall.stored, hall.numbers⟩, ?_⟩
  · rw [h.written.setup.root]
    exact h.above
  · rw [h.empty]
    exact hfits

/-- A leaf stored with other cells, before its fence is carried up. -/
structure Refilled (tree : IndexBtreePhysicalTree) (leaves : Level) (levels : List Level)
    (A : Level) (c d : IndexBtreePageBody) (B : Level) (path : List UInt64) : Prop where
  written : Rewritten tree (leaves ++ levels.flatten) (store tree d)
    ((A ++ d :: B) ++ levels.flatten)
  fits : LeafFits levels.isEmpty (A ++ d :: B)
  stale : Stale (store tree d) 1 levels (A.map (·.up)) [c.up]
    [(fenceCellForPage d, c.parentPageNumber)] (B.map (·.up)) c.parentPageNumber path
  number : c.up.1.childPageNumber = d.pageNumber
  parent : d.parentPageNumber = c.parentPageNumber

theorem Arranged.refilled (h : Arranged tree leaves levels) (hleaves : leaves = A ++ c :: B)
    (hpath : PathUp levels c.parentPageNumber path)
    (hd : d = c.refilled free cells) (hb : Buildable d tree.pageSize)
    (hfilled : levels.isEmpty = false → liveCells d ≠ [])
    (hasc : Ascending ((A ++ d :: B).flatMap liveCells)) :
    Refilled tree leaves levels A c d B path := by
  have hwritten := h.refill_written hleaves hd hb
  have hfits : LeafFits levels.isEmpty (A ++ d :: B) := (hleaves ▸ h.leaves).refill hd hfilled hasc
  have halone : levels.isEmpty = true → (A ++ d :: B).length = 1 := by
    intro htop
    have hlength := h.tower.above.alone htop
    rw [hleaves] at hlength
    simp only [length_append] at hlength ⊢
    exact hlength
  have hparent : d.parentPageNumber = c.parentPageNumber := by
    rw [hd]
    rfl
  have hnumber : c.up.1.childPageNumber = d.pageNumber := by
    rw [hd]
    rfl
  have hpending := h.pending (Z := [d]) hleaves hpath hwritten rfl
    (cons_ne_nil _ _) (forall_mem_singleton.mpr hparent) (hfits.fences_ascending halone)
  refine ⟨hwritten, hfits, ?_, hnumber, hparent⟩
  rw [listed_under hparent]
  exact hpending.stale

/-- The fence of the leaf is carried up. -/
theorem Refilled.arranged (h : Refilled tree leaves levels A c d B path)
    (hr : Returns (updateParentAfterLeafMutation path d result) (store tree d) r tree') :
    ∃ levels', Arranged tree' (A ++ d :: B) levels' := by
  obtain ⟨levels', hnext⟩ := carried levels Nat.one_pos h.written.sound h.stale h.number hr
  rw [listed_under h.parent, ← map_singleton, ← map_append, ← map_append] at hnext
  exact ⟨levels', hnext.arranged h.written h.fits⟩

/-- Between two updates the first fence is new and the second is not. -/
theorem ascending_between {U V : List IndexBtreeCell} {a b a' b' : IndexBtreeCell}
    (hold : Ascending (U ++ a :: b :: V)) (hnew : Ascending (U ++ a' :: b' :: V))
    (hab : a'.locator < b.locator) : Ascending (U ++ a' :: b :: V) := by
  obtain ⟨hU, hrest, hcross⟩ := pairwise_append.mp hold
  obtain ⟨-, -, hcross'⟩ := pairwise_append.mp hnew
  obtain ⟨-, hrest⟩ := pairwise_cons.mp hrest
  refine pairwise_append.mpr ⟨hU, pairwise_cons.mpr ⟨?_, hrest⟩, ?_⟩
  · intro v hv
    rcases mem_cons.mp hv with rfl | hv
    · exact hab
    · exact hab.trans ((pairwise_cons.mp hrest).1 v hv)
  · intro u hu v hv
    rcases mem_cons.mp hv with rfl | hv
    · exact hcross' u hu _ mem_cons_self
    · exact hcross u hu v (mem_cons_of_mem _ hv)

/-- Two neighbours of one parent stored with other cells, before their fences are
carried up. -/
structure Exchanged (tree : IndexBtreePhysicalTree) (leaves : Level) (levels : List Level)
    (A : Level) (x y x' y' : IndexBtreePageBody) (B : Level) (path : List UInt64) : Prop where
  written : Rewritten tree (leaves ++ levels.flatten) (store (store tree x') y')
    ((A ++ x' :: y' :: B) ++ levels.flatten)
  fits : LeafFits levels.isEmpty (A ++ x' :: y' :: B)
  left : Stale (store (store tree x') y') 1 levels (A.map (·.up)) [x.up]
    [(fenceCellForPage x', x.parentPageNumber)] ((y :: B).map (·.up)) x.parentPageNumber path
  numbers : x.pageNumber = x'.pageNumber ∧ y.pageNumber = y'.pageNumber
  parents : x'.parentPageNumber = x.parentPageNumber ∧ y.parentPageNumber = x.parentPageNumber ∧
    y'.parentPageNumber = x.parentPageNumber
  fences : Ascending ((A ++ x' :: y' :: B).map fenceCellForPage)
  row : (pageNumbers (A ++ x' :: y :: B)).Nodup

theorem Arranged.exchanged (h : Arranged tree leaves levels) (hleaves : leaves = A ++ x :: y :: B)
    (hsame : y.parentPageNumber = x.parentPageNumber)
    (hpath : PathUp levels x.parentPageNumber path)
    (hx : x' = x.refilled freeX cellsX) (hy : y' = y.refilled freeY cellsY)
    (hbx : Buildable x' tree.pageSize) (hby : Buildable y' tree.pageSize)
    (hfilledX : liveCells x' ≠ []) (hfilledY : liveCells y' ≠ []) (htop : levels.isEmpty = false)
    (hasc : Ascending ((A ++ x' :: y' :: B).flatMap liveCells))
    (hbetween : (fenceCellForPage x').locator < (fenceCellForPage y).locator) :
    Exchanged tree leaves levels A x y x' y' B path := by
  have hw₁ : Rewritten tree (leaves ++ levels.flatten) (store tree x')
      ((A ++ x' :: y :: B) ++ levels.flatten) := h.refill_written hleaves hx hbx
  have hfits : LeafFits levels.isEmpty (A ++ x' :: y' :: B) := by
    refine (hleaves ▸ h.leaves).of_frame ?_ ?_ hasc
    · rw [map_append, map_append, hx, hy]
      rfl
    · intro _ q hq
      have hold := h.leaves.filled htop q
      rw [hleaves] at hold
      simp only [mem_append, mem_cons] at hq hold
      rcases hq with hq | rfl | rfl | hq
      · exact hold (.inl hq)
      · exact hfilledX
      · exact hfilledY
      · exact hold (.inr (.inr (.inr hq)))
  subst hx hy
  have hw₂ := @one_written _ [] _ (A ++ [x.refilled freeX cellsX]) B levels.flatten y
    (y.refilled freeY cellsY) hw₁.sound hw₁.stored hw₁.numbers (by simp) rfl rfl hby
  rw [nil_append, nil_append, append_assoc A [_] (_ :: B)] at hw₂
  have hw := hw₁.trans hw₂
  have hnew := ascending_fences hasc (hfits.filled htop)
  have hnumbers := h.tower.numbers
  rw [hleaves, pageNumbers_append] at hnumbers
  obtain ⟨hrow, hlevels, -⟩ := nodup_append'.mp hnumbers
  have hfences : Ascending ((A ++ ([x.refilled freeX cellsX] ++ y :: B)).map fenceCellForPage) := by
    have hold := h.fences_ascending
    rw [hleaves] at hold
    simp only [map_append] at hold hnew ⊢
    exact ascending_between hold hnew hbetween
  have habove := h.tower.above
  rw [hleaves] at habove
  refine ⟨hw, hfits, ?_, ⟨rfl, rfl⟩, ⟨rfl, hsame, hsame⟩, hnew, ?_⟩
  · exact @stale_row _ 1 x.parentPageNumber path levels A (y :: B) [x.refilled freeX cellsX] [x]
      habove (fun q hq => hw.stored q (mem_append_right _ hq)) hlevels hrow hpath (cons_ne_nil _ _)
      (forall_mem_singleton.mpr rfl) (cons_ne_nil _ _) (forall_mem_singleton.mpr rfl) hfences
  · simp only [map_append] at hrow ⊢
    exact hrow

/-- With the first fence carried up, the second is what is out of date. -/
theorem Exchanged.right (h : Exchanged tree leaves levels A x y x' y' B path)
    (hn : Refenced (store (store tree x') y') 1
      (A.map (·.up) ++ ([(fenceCellForPage x', x.parentPageNumber)] ++
        (y :: B).map (·.up))) levels x.parentPageNumber path t levels') :
    Stale t 1 levels' ((A ++ [x']).map (·.up)) [y.up]
      [(fenceCellForPage y', x.parentPageNumber)] (B.map (·.up)) x.parentPageNumber path := by
  obtain ⟨hxp, hsame, hyp⟩ := h.parents
  have habove := hn.above
  rw [listed_under hxp, ← hn.written.setup.root] at habove
  have hrow : (pageNumbers ((A ++ [x']) ++ ([y] ++ B))).Nodup := by simpa using h.row
  rw [listed_under hyp]
  exact @stale_row t 1 x.parentPageNumber path levels' (A ++ [x']) B [y']
    [y] (by simpa using habove) hn.written.stored hn.written.numbers hrow hn.path
    (cons_ne_nil _ _) (forall_mem_singleton.mpr hsame)
    (cons_ne_nil _ _) (forall_mem_singleton.mpr hyp) (by simpa using h.fences)

/-- The fences are carried up one after the other. -/
theorem Exchanged.arranged (h : Exchanged tree leaves levels A x y x' y' B path)
    (hr₁ : Returns (updateParentAfterLeafMutation path x' result) (store (store tree x') y') r₁ t)
    (hr₂ : Returns (updateParentAfterLeafMutation path y' r₁) t r₂ tree') :
    ∃ levels', Arranged tree' (A ++ x' :: y' :: B) levels' := by
  obtain ⟨levels₁, hn₁⟩ := carried levels Nat.one_pos h.written.sound h.left h.numbers.1 hr₁
  obtain ⟨levels₂, hn₂⟩ := carried levels₁ Nat.one_pos hn₁.written.sound
    (h.right hn₁) h.numbers.2 hr₂
  rw [listed_under h.parents.2.2, ← map_singleton, ← map_append, ← map_append] at hn₂
  have hfits : LeafFits levels₁.isEmpty ((A ++ [x']) ++ ([y'] ++ B)) := by
    rw [hn₁.empty]
    simpa using h.fits
  have hwritten := h.written.beside hn₁.written
  rw [List.append_cons A x' (y' :: B)] at hwritten
  have hdone := hn₂.arranged hwritten hfits
  exact ⟨levels₂, by simpa using hdone⟩

end Leaves

/-! ## Two leaves merged -/

/-- A leaf that takes over the cells and the right link of the one behind it. -/
def IndexBtreePageBody.absorbing (x y : IndexBtreePageBody) (free : UInt32)
    (cells : List IndexBtreeCell) : IndexBtreePageBody :=
  { x.refilled free cells with
    rightSiblingPageNumber := y.rightSiblingPageNumber }

section Merging

variable {free : UInt32} {U V : List Listing}

theorem linked_merged (h : PageLinks prev (A ++ x :: y :: B) next)
    (hm : m = x.absorbing y free cells) :
    PageLinks prev (A ++ m :: relinked pageSize x.pageNumber B) next := by
  obtain ⟨hA, hxl, -, -, hyr, hB⟩ := linked_append.mp h
  have hfirst : firstOr (·.pageNumber) (relinked pageSize x.pageNumber B) next =
      firstOr (·.pageNumber) B next := by
    cases B with
    | nil => rfl
    | cons b B => rfl
  subst hm
  refine linked_append.mpr ⟨hA, hxl, hyr.trans hfirst.symm, ?_⟩
  exact linked_relinked hB

theorem LeafFits.merged (h : LeafFits top (A ++ x :: y :: B))
    (hm : m = x.absorbing y free cells) (hfilled : liveCells m ≠ [])
    (hasc : Ascending ((A ++ m :: B).flatMap liveCells)) :
    LeafFits top (A ++ m :: relinked pageSize x.pageNumber B) := by
  have hx : x ∈ A ++ x :: y :: B := by simp
  -- the pages are those from before, but for `m` and a left link
  have hall : ∀ P : IndexBtreePageBody → Prop,
      (∀ b n, P b → P { b.settled pageSize with leftSiblingPageNumber := n }) →
      P m → (∀ p ∈ A ++ x :: y :: B, P p) →
      ∀ p ∈ A ++ m :: relinked pageSize x.pageNumber B, P p := by
    intro P hP hm h p hp
    rcases mem_append.mp hp with hA | hp
    · exact h p (mem_append_left _ hA)
    · rcases mem_cons.mp hp with rfl | hB
      · exact hm
      · exact forall_relinked (fun b => hP b _) (fun b hb => h b (by simp [hb])) p hB
  refine ⟨?_, ?_, linked_merged h.linked hm, ?_, ?_⟩
  · refine hall _ (fun _ _ hb => hb) ?_ h.level
    rw [hm]
    exact h.level x hx
  · refine hall _ (fun _ _ hb => hb) ?_ h.kind
    rw [hm]
    exact h.kind x hx
  · exact fun htop => hall _ (fun _ _ hb => hb) hfilled (h.filled htop)
  · rw [flatMap_append, flatMap_cons] at hasc ⊢
    rw [live_relinked]
    exact hasc

theorem merged_written (h : Arranged tree leaves levels)
    (hleaves : leaves = A ++ x :: y :: B) (hm : m = x.absorbing y free cells)
    (hbuilt : ∀ b ∈ m :: (relinked tree.pageSize x.pageNumber B).take 1,
      Buildable b tree.pageSize) :
    Rewritten tree (leaves ++ levels.flatten)
      (storeAll tree (m :: (relinked tree.pageSize x.pageNumber B).take 1))
      ((A ++ m :: relinked tree.pageSize x.pageNumber B) ++ levels.flatten) := by
  have hsub : (pageNumbers ((A ++ m :: relinked tree.pageSize x.pageNumber B) ++
      levels.flatten)).Sublist (pageNumbers (leaves ++ levels.flatten)) := by
    have hnumber : m.pageNumber = x.pageNumber := by
      rw [hm]
      rfl
    rw [pageNumbers_append, pageNumbers_append, pageNumbers_append, hleaves, pageNumbers_append]
    refine ((List.Sublist.refl _).append ?_).append (List.Sublist.refl _)
    show (m.pageNumber :: pageNumbers (relinked _ _ B)).Sublist
      (x.pageNumber :: y.pageNumber :: pageNumbers B)
    rw [hnumber, numbers_relinked]
    exact (List.sublist_cons_self _ _).cons_cons _
  refine (fresh_none h.tower.sound).rewritten h.tower.stored
    (h.tower.numbers.sublist hsub) (fun n hn => .inr (hsub.subset hn)) ?_ ?_ ?_
  · refine List.Sublist.trans ?_ (List.sublist_append_left _ _)
    refine List.Sublist.trans ?_ (List.sublist_append_right _ _)
    exact (List.take_sublist _ _).cons_cons _
  · intro b hb
    refine ⟨hbuilt b hb, ?_⟩
    have hindex : ∀ p ∈ A ++ x :: y :: B, p.indexUuid = tree.indexUuid := by
      intro p hp
      exact (h.stored (hleaves ▸ hp)).index
    rcases mem_cons.mp hb with rfl | hb
    · rw [hm]
      exact hindex x (by simp)
    · exact forall_relinked (fun _ hy => hy) (fun b hb => hindex b (by simp [hb]))
        b (List.mem_of_mem_take hb)
  · intro b hb
    have hold := h.tower.stored b
    have hrel := @mem_relinked B tree.pageSize x.pageNumber b
    grind

/-- A leaf stored as the root. -/
theorem arranged_leaf (hsound : Sound tree) (hm : Storable tree m)
    (hroot : m.pageNumber = tree.rootPageNumber)
    (halloc : Allocated tree m.pageNumber) (hparent : m.parentPageNumber = 0)
    (hlinks : m.leftSiblingPageNumber = 0 ∧ m.rightSiblingPageNumber = 0)
    (hkind : m.pageKind = .root) (hlevel : m.treeLevel = 0)
    (hasc : Ascending (liveCells m)) : Arranged (store tree m) [m] [] := by
  refine ⟨⟨hsound.store hm halloc, ?_, ?_, nodup_singleton _⟩, ?_, ?_, ?_, ?_, ?_⟩
  · refine ⟨fenceCellForPage m, ?_, hroot⟩
    rw [← hparent]
    rfl
  · exact forall_mem_singleton.mpr (stored_store hm.built hm.index)
  · exact forall_mem_singleton.mpr hlevel
  · exact forall_mem_singleton.mpr hkind
  · exact ⟨hlinks.1, hlinks.2, trivial⟩
  · exact nofun
  · rw [flatMap_singleton]
    exact hasc

/-- Storing the root does not touch its only child. -/
theorem OnlyChild.kept_stored (hq : OnlyChild t levels U V m q)
    (hstored : ∀ b ∈ m :: levels.flatten, Stored t b)
    (hnumbers : (pageNumbers (m :: levels.flatten)).Nodup) : Stored (store t q) m := by
  have hm := hstored m mem_cons_self
  have hne : q.pageNumber ≠ m.pageNumber := by
    intro heq
    have hheld := hq.held
    rw [heq] at hheld
    exact (nodup_cons.mp hnumbers).1 hheld
  exact hm.store_of_ne hq.storable.built hne

/-- A tree that has become a single leaf. -/
theorem OnlyChild.arranged (hq : OnlyChild t levels U V m q) (hsound : Sound t)
    (hstored : ∀ b ∈ m :: levels.flatten, Stored t b)
    (hnumbers : (pageNumbers (m :: levels.flatten)).Nodup)
    (hlevel : m.treeLevel = 0) (hasc : Ascending (liveCells m))
    (hr : Returns (collapseRootToOnlyChild q result) (store t q) r tree') :
    Arranged tree' [m.asRoot t.pageSize t.rootPageNumber] [] := by
  have hm := hstored m mem_cons_self
  have hkept := hq.kept_stored hstored hnumbers
  obtain ⟨hb, -, rfl⟩ := (returns_collapseRootToOnlyChild hq hkept hlevel).mp hr
  have halloc : Allocated t q.pageNumber := by
    obtain ⟨p, hp, hpn⟩ := mem_map.mp hq.held
    rw [← hpn]
    exact (hstored p (mem_cons_of_mem _ hp)).allocated hsound
  have hroot : Allocated t t.rootPageNumber := hq.number ▸ halloc
  exact arranged_leaf (hsound.store hq.storable halloc) ⟨hb, hm.index⟩ rfl hroot
    rfl ⟨rfl, rfl⟩ rfl hlevel hasc

/-- A leaf has taken over the one behind it, under the same parent, and the fences
are still those of both. -/
structure Merged (tree : IndexBtreePhysicalTree) (leaves : Level) (levels : List Level) (A : Level)
    (x y m : IndexBtreePageBody) (B : Level) (path : List UInt64) : Prop where
  written : Rewritten tree (leaves ++ levels.flatten)
    (storeAll tree (m :: (relinked tree.pageSize x.pageNumber B).take 1))
    ((A ++ m :: relinked tree.pageSize x.pageNumber B) ++ levels.flatten)
  fits : LeafFits levels.isEmpty (A ++ m :: relinked tree.pageSize x.pageNumber B)
  stale : Stale (storeAll tree (m :: (relinked tree.pageSize x.pageNumber B).take 1)) 1 levels
    (A.map (·.up)) [x.up, y.up] [(fenceCellForPage m, x.parentPageNumber)]
    ((relinked tree.pageSize x.pageNumber B).map (·.up)) x.parentPageNumber path
  number : x.up.1.childPageNumber = m.pageNumber
  parent : m.parentPageNumber = x.parentPageNumber

theorem Arranged.merged (h : Arranged tree leaves levels) (hleaves : leaves = A ++ x :: y :: B)
    (hsame : y.parentPageNumber = x.parentPageNumber)
    (hpath : PathUp levels x.parentPageNumber path) (hm : m = x.absorbing y free cells)
    (hbuilt : ∀ b ∈ m :: (relinked tree.pageSize x.pageNumber B).take 1, Buildable b tree.pageSize)
    (hfilled : liveCells m ≠ []) (htop : levels.isEmpty = false)
    (hasc : Ascending ((A ++ m :: B).flatMap liveCells)) :
    Merged tree leaves levels A x y m B path := by
  have hwritten := merged_written h hleaves hm hbuilt
  have hfits : LeafFits levels.isEmpty (A ++ m :: relinked tree.pageSize x.pageNumber B) :=
    (hleaves ▸ h.leaves).merged hm hfilled hasc
  have hparent : m.parentPageNumber = x.parentPageNumber := by
    rw [hm]
    rfl
  have hnumber : x.up.1.childPageNumber = m.pageNumber := by
    rw [hm]
    rfl
  have hnumbers := h.tower.numbers
  rw [hleaves, pageNumbers_append] at hnumbers
  obtain ⟨hrow, hlevels, -⟩ := nodup_append'.mp hnumbers
  have habove := h.tower.above
  rw [hleaves] at habove
  refine ⟨hwritten, hfits, ?_, hnumber, hparent⟩
  generalize hB : relinked tree.pageSize x.pageNumber B = B' at *
  have hups : B'.map (·.up) = B.map (·.up) := by
    rw [← hB]
    exact up_relinked
  have hBn : pageNumbers B' = pageNumbers B := by
    rw [← hB]
    exact numbers_relinked
  rw [listed_under hparent]
  exact @stale_row _ 1 x.parentPageNumber path levels A B' [m] [x, y]
    (by simpa [hups] using habove) (fun q hq => hwritten.stored q (mem_append_right _ hq)) hlevels
    (by simpa [pageNumbers_append, hBn] using hrow) hpath (cons_ne_nil _ _)
    (forall_mem_cons.mpr ⟨rfl, forall_mem_singleton.mpr hsame⟩)
    (cons_ne_nil _ _) (forall_mem_singleton.mpr hparent)
    (ascending_fences hfits.ascending (hfits.filled htop))

/-- The leaves that are left, when the merged leaf is alone under the root. -/
theorem Merged.alone (h : Merged tree leaves levels A x y m B path) (hq : OnlyChild (storeAll tree
      (m :: (relinked tree.pageSize x.pageNumber B).take 1)) levels (A.map (·.up))
      ((relinked tree.pageSize x.pageNumber B).map (·.up)) m q) :
    A = [] ∧ relinked tree.pageSize x.pageNumber B = [] ∧ m.treeLevel = 0 :=
  ⟨map_eq_nil_iff.mp hq.alone.1, map_eq_nil_iff.mp hq.alone.2, h.fits.level m (by simp)⟩

/-- The fence of the leaf that is gone is taken away. -/
theorem Merged.arranged (h : Merged tree leaves levels A x y m B path)
    (hr : Returns (removeChildFenceAndMaybeCollapse path m y.pageNumber result)
      (storeAll tree (m :: (relinked tree.pageSize x.pageNumber B).take 1)) r tree') :
    ∃ leaves' levels', Arranged tree' leaves' levels' ∧
      leaves'.flatMap liveCells = (A ++ m :: B).flatMap liveCells := by
  have hlive : (A ++ m :: relinked tree.pageSize x.pageNumber B).flatMap liveCells =
      (A ++ m :: B).flatMap liveCells := by
    rw [flatMap_append, flatMap_append, flatMap_cons, flatMap_cons, live_relinked]
  rcases removeChildFenceAndMaybeCollapse_ok Nat.one_pos h.written.sound h.stale
    h.number rfl hr with ⟨levels', hnext⟩ | ⟨q, hq, hr⟩
  · rw [listed_under h.parent, ← map_singleton, ← map_append, ← map_append] at hnext
    exact ⟨_, levels', hnext.arranged h.written h.fits, hlive⟩
  · obtain ⟨hA, hB, hlevel⟩ := h.alone hq
    have hwritten := h.written
    have hasc := h.fits.ascending
    rw [hA, hB, nil_append] at hwritten hasc hlive
    rw [flatMap_singleton] at hasc
    rw [hB] at hq hr
    refine ⟨_, [], hq.arranged hwritten.sound hwritten.stored hwritten.numbers hlevel hasc hr, ?_⟩
    rw [hA, ← hlive]
    rfl

end Merging

/-! ## The tree rebuilt -/

theorem atStage_ok_iff {α : Type} {detail : String} {x : Except DiagnosticRecord α} {a : α} :
    atStage detail x = .ok a ↔ x = .ok a := by
  cases x with
  | ok b => exact Iff.rfl
  | error d => simp [atStage, indexPageError]

/-- A new index is a single leaf without cells. -/
theorem initialize_arranged (h : initializeIndexBtreePhysicalTree index pageSize = .ok tree) :
    ∃ root, Arranged tree [root] [] ∧ liveCells root = [] := by
  rw [initializeIndexBtreePhysicalTree, indexPageError, guard_eq_ok_iff] at h
  obtain ⟨hindex, h⟩ := h
  split at h
  · cases h
  · next staged hstaged =>
    obtain ⟨hb, rfl⟩ := stagePhysicalPage_ok_iff.mp hstaged
    cases h
    refine ⟨_, arranged_leaf ⟨?_, nodup_nil, ?_, ?_⟩ ⟨hb, rfl⟩ rfl
      (.inl ?_) rfl ⟨rfl, rfl⟩ rfl rfl List.Pairwise.nil, rfl⟩
    · simpa using hindex
    · exact forall_mem_nil _
    · exact forall_mem_nil _
    · show (1 : UInt64) < 2
      decide

/-- A live cell of a leaf has nothing a fence or a deleted cell has. -/
def PlainEntry (cell : IndexBtreeCell) : Prop :=
  { cell with highKey := false, deleted := false, childPageNumber := 0 } = cell

theorem Arranged.live_fits (h : Arranged tree leaves levels) {c : IndexBtreeCell}
    (hc : c ∈ leaves.flatMap liveCells) : CellFits false c := by
  obtain ⟨p, hp, hc⟩ := mem_flatMap.mp hc
  have hfits := (h.stored hp).built.fits.cells c (mem_filter.mp hc).1
  rwa [h.leaves.not_internal hp] at hfits

theorem Arranged.plain (h : Arranged tree leaves levels) :
    ∀ c ∈ leaves.flatMap liveCells, PlainEntry c := by
  intro c hc
  have hfits := h.live_fits hc
  obtain ⟨p, hp, hc⟩ := mem_flatMap.mp hc
  have hlive := (mem_filter.mp hc).2
  rw [Bool.not_eq_true'] at hlive
  have hchild := hfits.child.mpr rfl
  have hhigh := hfits.highKey
  cases c
  simp only at hlive hchild hhigh
  rw [PlainEntry, hlive, hchild, hhigh]

/-- Entries inserted one by one. The induction is on the entries. -/
theorem insertAll_ok (h : Arranged tree leaves levels) (hplain : ∀ c ∈ cells, PlainEntry c)
    (hasc : Ascending cells)
    (hfresh : ∀ c ∈ cells, ∀ m ∈ leaves.flatMap liveCells, m.locator ≠ c.locator)
    (hr : insertAll cells tree = .ok tree') : ∃ leaves' levels', Arranged tree' leaves' levels' ∧
      (leaves'.flatMap liveCells).Perm (cells ++ leaves.flatMap liveCells) := by
  induction cells generalizing tree leaves levels with
  | nil =>
    cases hr
    exact ⟨leaves, levels, h, List.Perm.refl _⟩
  | cons c cells ih =>
    obtain ⟨hc, hplain⟩ := forall_mem_cons.mp hplain
    obtain ⟨hlt, hasc⟩ := pairwise_cons.mp hasc
    obtain ⟨hnew, hfresh⟩ := forall_mem_cons.mp hfresh
    have hlive : c.deleted = false := by rw [← hc]
    rw [insertAll, hc] at hr
    split at hr
    · next r t hrun =>
      obtain ⟨leaves₁, levels₁, h₁, -, hperm⟩ := h.insert (fun _ => hnew) hrun
      have hadded : added c = [c] := by
        rw [added, List.filter_singleton, hlive]
        rfl
      rw [hadded] at hperm
      obtain ⟨leaves', levels', h', hperm'⟩ := ih h₁ hplain hasc (by
        intro d hd m hm
        rcases mem_append.mp (hperm.subset hm) with hm | hm
        · rw [mem_singleton.mp hm]
          exact ne_of_lt (hlt d hd)
        · exact hfresh d hd m hm) hr
      refine ⟨leaves', levels', h', hperm'.trans ?_⟩
      refine (hperm.append_left _).trans ?_
      exact perm_middle
    · cases hr

/-- A tree rebuilt from live entries in order has exactly those. -/
theorem rebuild_ok (hplain : ∀ c ∈ cells, PlainEntry c) (hasc : Ascending cells)
    (h : rebuildIndexBtreePhysicalTreeFromLiveCells tree cells = .ok tree') :
    ∃ leaves' levels', Arranged tree' leaves' levels' ∧ (leaves'.flatMap liveCells).Perm cells := by
  rw [rebuildIndexBtreePhysicalTreeFromLiveCells, sortCells_of_ascending hasc] at h
  obtain ⟨fresh, hfresh, h⟩ := bind_eq_ok_iff.mp h
  obtain ⟨u, -, h⟩ := bind_eq_ok_iff.mp h
  obtain ⟨rebuilt, hinsert, h⟩ := bind_eq_ok_iff.mp h
  obtain ⟨v, -, h⟩ := bind_eq_ok_iff.mp h
  obtain ⟨w, -, h⟩ := bind_eq_ok_iff.mp h
  cases h
  obtain ⟨root, hroot, hlive⟩ := initialize_arranged (atStage_ok_iff.mp hfresh)
  have hnone : [root].flatMap liveCells = [] := by rw [flatMap_singleton, hlive]
  obtain ⟨leaves', levels', h', hperm⟩ := insertAll_ok hroot hplain hasc (by
      rw [hnone]
      exact fun _ _ => nofun)
    (atStage_ok_iff.mp hinsert)
  rw [hnone, append_nil] at hperm
  exact ⟨leaves', levels', h', hperm⟩

end ScratchBird.Btree
