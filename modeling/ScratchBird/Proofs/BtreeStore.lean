import ScratchBird.Index.BtreeInsert
import ScratchBird.Proofs.BtreePage

/-!
# Pages in the store

What staging, publishing and fetching do to the pages of a tree. A page is
*stored* when a fetch of its number gives it back, up to the free space that is
computed when it is built. Publishing a page stores it and leaves every page of
another number as it was, and a number that was never handed out names no image.
-/

namespace ScratchBird.Btree

open Lib List
open Storage (isTypedEngineIdentity)

variable {pageSize : UInt32} {r : IndexBtreePageBodyResult} {image j : IndexBtreePhysicalPageImage}
  {images : List IndexBtreePhysicalPageImage} {α β : Type} {code key detail : String} {u : Unit}
  {k midpoint : Nat} {left right body page : IndexBtreePageBody}
  {cells front back : List IndexBtreeCell} {tree tree' : IndexBtreePhysicalTree}
  {bodies more : List IndexBtreePageBody} {n : UInt64} {staged : List IndexBtreePageBodyResult}
  {splits : List Nat} {best : Option Nat} {a : α}

theorem stagePhysicalPage_ok_iff :
    stagePhysicalPage body pageSize = .ok r ↔
      Buildable body pageSize ∧ r = body.laidOut pageSize := by
  rw [stagePhysicalPage, bind_eq_ok_iff]
  constructor
  · rintro ⟨built, hbuilt, h⟩
    obtain ⟨hb, rfl⟩ := buildIndexBtreePageBody_ok_iff.mp hbuilt
    rw [parse_laidOut hb] at h
    exact ⟨hb, (Except.ok.inj h).symm⟩
  · rintro ⟨hb, rfl⟩
    refine ⟨_, buildIndexBtreePageBody_ok_iff.mpr ⟨hb, rfl⟩, ?_⟩
    rw [parse_laidOut hb]
    rfl

/-- A page put into the store the way a staged page is published. -/
def store (tree : IndexBtreePhysicalTree) (body : IndexBtreePageBody) :
    IndexBtreePhysicalTree :=
  publishStagedPage tree (body.laidOut tree.pageSize)

def storeAll (tree : IndexBtreePhysicalTree)
    (bodies : List IndexBtreePageBody) : IndexBtreePhysicalTree := bodies.foldl store tree

theorem storeAll_cons : storeAll tree (body :: bodies) = storeAll (store tree body) bodies := rfl

theorem storeAll_append :
    storeAll tree (bodies ++ more) = storeAll (storeAll tree bodies) more := foldl_append

/-- Storing pages leaves the other fields of the tree alone. -/
theorem storeAll_fields (tree : IndexBtreePhysicalTree) (bodies : List IndexBtreePageBody) :
    (storeAll tree bodies).pageSize = tree.pageSize ∧
      (storeAll tree bodies).indexUuid = tree.indexUuid ∧
      (storeAll tree bodies).rootPageNumber = tree.rootPageNumber ∧
      (storeAll tree bodies).nextPageNumber = tree.nextPageNumber := by
  induction bodies generalizing tree with
  | nil => exact ⟨rfl, rfl, rfl, rfl⟩
  | cons body bodies ih => exact ih (store tree body)

@[simp] theorem storeAll_pageSize :
    (storeAll tree bodies).pageSize = tree.pageSize := (storeAll_fields tree bodies).1

@[simp] theorem storeAll_indexUuid :
    (storeAll tree bodies).indexUuid = tree.indexUuid := (storeAll_fields tree bodies).2.1

@[simp] theorem storeAll_rootPageNumber :
    (storeAll tree bodies).rootPageNumber = tree.rootPageNumber :=
  (storeAll_fields tree bodies).2.2.1

@[simp] theorem storeAll_nextPageNumber :
    (storeAll tree bodies).nextPageNumber = tree.nextPageNumber :=
  (storeAll_fields tree bodies).2.2.2

/-! ## Publishing -/

theorem find?_image_cons (i : IndexBtreePhysicalPageImage)
    (images : List IndexBtreePhysicalPageImage) (n : UInt64) :
    (i :: images).find? (·.pageNumber == n) =
      if i.pageNumber = n then some i
      else images.find? (·.pageNumber == n) := by
  rw [List.find?_cons]
  split
  · next h => rw [if_pos (eq_of_beq h)]
  · next h => rw [if_neg (ne_of_beq_false h)]

theorem find?_publishImage (n : UInt64) : (publishImage image images).find? (·.pageNumber == n) =
      if image.pageNumber = n then some image
      else images.find? (·.pageNumber == n) := by
  fun_induction publishImage image images with
  | case1 => rw [find?_image_cons]
  | case2 i rest hi =>
    rw [find?_image_cons, find?_image_cons, hi]
    split <;> rfl
  | case3 i rest hi ih =>
    rw [find?_image_cons, find?_image_cons, ih]
    split
    · next hn => rw [if_neg fun h => hi (hn.trans h.symm)]
    · rfl

theorem mem_publishImage (h : j ∈ publishImage image images) : j = image ∨ j ∈ images := by
  fun_induction publishImage image images with
  | case1 => exact .inl (mem_singleton.mp h)
  | case2 => exact (mem_cons.mp h).imp_right (mem_cons_of_mem _)
  | case3 i rest _ ih =>
    rcases mem_cons.mp h with rfl | hmem
    · exact .inr mem_cons_self
    · exact (ih hmem).imp_right (mem_cons_of_mem _)

theorem nodup_publishImage (h : (images.map (·.pageNumber)).Nodup) :
    ((publishImage image images).map (·.pageNumber)).Nodup := by
  fun_induction publishImage image images with
  | case1 => exact nodup_singleton _
  | case2 i rest hi =>
    rw [map_cons, ← hi]
    exact h
  | case3 i rest hi ih =>
    rw [map_cons, nodup_cons] at h ⊢
    refine ⟨fun hmem => ?_, ih h.2⟩
    obtain ⟨j, hj, hnum⟩ := mem_map.mp hmem
    rcases mem_publishImage hj with rfl | hj
    · exact hi hnum.symm
    · exact h.1 (hnum ▸ mem_map_of_mem hj)

theorem fetch_store (hb : Buildable body tree.pageSize) (n : UInt64) :
    fetchIndexBtreePhysicalPage (store tree body) n =
      if body.pageNumber = n then .ok (body.settled tree.pageSize)
      else fetchIndexBtreePhysicalPage tree n := by
  rw [fetchIndexBtreePhysicalPage, store, publishStagedPage, find?_publishImage]
  by_cases hn : body.pageNumber = n
  · subst hn
    have hnumber : (body.laidOut tree.pageSize).body.pageNumber =
        body.pageNumber := rfl
    rw [if_pos hnumber, if_pos rfl]
    show (·.body) <$> parseIndexBtreePageBody _ _ = _
    rw [parse_laidOut hb]
    rfl
  · have hnumber : (body.laidOut tree.pageSize).body.pageNumber ≠ n := hn
    rw [if_neg hnumber, if_neg hn]
    rfl

/-! ## Stored pages -/

structure Stored (tree : IndexBtreePhysicalTree) (body : IndexBtreePageBody) : Prop where
  fetched : fetchIndexBtreePhysicalPage tree body.pageNumber = .ok (body.settled tree.pageSize)
  built : Buildable body tree.pageSize
  index : body.indexUuid = tree.indexUuid

theorem stored_store (hb : Buildable body tree.pageSize)
    (hindex : body.indexUuid = tree.indexUuid) :
    Stored (store tree body) body := ⟨by rw [fetch_store hb, if_pos rfl]; rfl, hb, hindex⟩

theorem Stored.store_of_ne (h : Stored tree page)
    (hb : Buildable body tree.pageSize) (hne : body.pageNumber ≠ page.pageNumber) :
    Stored (store tree body) page :=
  ⟨by rw [fetch_store hb, if_neg hne]; exact h.fetched, h.built, h.index⟩

/-- What can be stored: a page that can be built, of the tree's index. -/
structure Storable (tree : IndexBtreePhysicalTree) (body : IndexBtreePageBody) : Prop where
  built : Buildable body tree.pageSize
  index : body.indexUuid = tree.indexUuid

theorem Storable.store (h : Storable tree page) :
    Storable (store tree body) page := ⟨h.built, h.index⟩

theorem Stored.storeAll_of_notMem (h : Stored tree page) (hb : ∀ b ∈ bodies, Storable tree b)
    (hne : page.pageNumber ∉ bodies.map (·.pageNumber)) : Stored (storeAll tree bodies) page := by
  induction bodies generalizing tree with
  | nil => exact h
  | cons b bodies ih =>
    rw [map_cons, mem_cons, not_or] at hne
    have hb' := forall_mem_cons.mp hb
    exact ih (h.store_of_ne hb'.1.built (Ne.symm hne.1)) (fun c hc => (hb'.2 c hc).store) hne.2

theorem stored_storeAll (hb : ∀ b ∈ bodies, Storable tree b)
    (hnodup : (bodies.map (·.pageNumber)).Nodup) (hmem : page ∈ bodies) :
    Stored (storeAll tree bodies) page := by
  induction bodies generalizing tree with
  | nil => cases hmem
  | cons b bodies ih =>
    rw [map_cons, nodup_cons] at hnodup
    have hb' := forall_mem_cons.mp hb
    rcases mem_cons.mp hmem with rfl | hmem
    · exact (stored_store hb'.1.built hb'.1.index).storeAll_of_notMem
        (fun c hc => (hb'.2 c hc).store) hnodup.1
    · exact ih (fun c hc => (hb'.2 c hc).store) hnodup.2 hmem

/-! ## Numbers handed out -/

/-- A number below the next one; all of them once the counter has wrapped. -/
def Allocated (tree : IndexBtreePhysicalTree) (n : UInt64) : Prop :=
  n < tree.nextPageNumber ∨ tree.nextPageNumber = 0

/-- The images of a tree: distinct numbers that were handed out, each image the
image of a page of this index. -/
structure Sound (tree : IndexBtreePhysicalTree) : Prop where
  index : isTypedEngineIdentity tree.indexUuid .object = true
  distinct : (tree.pages.map (·.pageNumber)).Nodup
  images : ∀ image ∈ tree.pages, ∃ parsed,
    parseIndexBtreePageBody image.serialized image.pageNumber = .ok parsed ∧
      parsed.body.indexUuid.value = tree.indexUuid.value
  allocated : ∀ image ∈ tree.pages, Allocated tree image.pageNumber

/-- The tree after a number was taken. -/
def bump (tree : IndexBtreePhysicalTree) : IndexBtreePhysicalTree :=
  { tree with nextPageNumber := tree.nextPageNumber + 1 }

/-- A number counted up. -/
def advance : UInt64 → Nat → UInt64
  | n, 0 => n
  | n, k + 1 => advance (n + 1) k

theorem advance_add {j : Nat} : advance (advance n j) k = advance n (j + k) := by
  induction j generalizing n with
  | zero => rw [advance, Nat.zero_add]
  | succ j ih => rw [advance, ih, Nat.succ_add, advance]

theorem advance_toNat (h : n.toNat + k < 2 ^ 64) : (advance n k).toNat = n.toNat + k := by
  induction k generalizing n with
  | zero => rfl
  | succ k ih =>
    have hnext : (n + 1).toNat = n.toNat + 1 := by
      rw [UInt64.toNat_add, UInt64.toNat_one, Nat.mod_eq_of_lt (by omega)]
    rw [advance, ih (by omega)]
    omega

theorem stored_bump (h : Stored tree page) : Stored (bump tree) page :=
  ⟨h.fetched, h.built, h.index⟩

theorem exists_image_of_fetch (h : fetchIndexBtreePhysicalPage tree n = .ok body) :
    ∃ image ∈ tree.pages, image.pageNumber = n := by
  rw [fetchIndexBtreePhysicalPage] at h
  split at h
  · cases h
  · next image himage =>
    have hnum := List.find?_some himage
    exact ⟨image, List.mem_of_find?_eq_some himage, eq_of_beq hnum⟩

theorem Stored.allocated (h : Stored tree page) (hs : Sound tree) :
    Allocated tree page.pageNumber := by
  obtain ⟨image, hmem, hnum⟩ := exists_image_of_fetch h.fetched
  exact hnum ▸ hs.allocated image hmem

theorem allocated_bump (h : Allocated tree n) (hnext : tree.nextPageNumber ≠ 0) :
    Allocated (bump tree) n := by
  have hlt : n < tree.nextPageNumber := h.resolve_right hnext
  rw [Allocated, bump]
  grind

theorem allocated_next : Allocated (bump tree) tree.nextPageNumber := by
  rw [Allocated, bump]
  grind

theorem Sound.bump (hs : Sound tree) (hnext : tree.nextPageNumber ≠ 0) : Sound (bump tree) :=
  ⟨hs.index, hs.distinct, hs.images,
    fun image hmem => allocated_bump (hs.allocated image hmem) hnext⟩

/-- The next number names no stored page. -/
theorem Stored.number_ne_next (h : Stored tree page) (hs : Sound tree)
    (hnext : tree.nextPageNumber ≠ 0) : page.pageNumber ≠ tree.nextPageNumber := by
  have hlt := (h.allocated hs).resolve_right hnext
  grind

theorem Sound.store (hs : Sound tree)
    (hb : Storable tree body) (halloc : Allocated tree body.pageNumber) :
    Sound (store tree body) where
  index := hs.index
  distinct := nodup_publishImage hs.distinct
  images image hmem := by
    rcases mem_publishImage hmem with rfl | hmem
    · exact ⟨_, parse_laidOut hb.built, congrArg TypedUuid.value hb.index⟩
    · exact hs.images image hmem
  allocated image hmem := by
    rcases mem_publishImage hmem with rfl | hmem
    · exact halloc
    · exact hs.allocated image hmem

theorem Sound.storeAll (hs : Sound tree)
    (hb : ∀ b ∈ bodies, Storable tree b) (halloc : ∀ b ∈ bodies, Allocated tree b.pageNumber) :
    Sound (storeAll tree bodies) := by
  induction bodies generalizing tree with
  | nil => exact hs
  | cons b bodies ih =>
    have hb' := forall_mem_cons.mp hb
    have ha' := forall_mem_cons.mp halloc
    exact ih (hs.store hb'.1 ha'.1) (fun c hc => (hb'.2 c hc).store) ha'.2

/-! ## The steps of a call -/

section Steps

variable {b : β}

theorem returns_treeError :
    Returns (treeError code key detail : TreeM α) tree a tree' ↔ False := returns_throw

theorem returns_fetchPage :
    Returns (fetchPage n) tree page tree' ↔
      fetchIndexBtreePhysicalPage tree n = .ok page ∧ tree = tree' := by
  rw [fetchPage, returns_get_bind, returns_ofOutcome]

theorem Stored.returns_fetch_bind {f : IndexBtreePageBody → TreeM α} (h : Stored tree body)
    (hn : body.pageNumber = n) :
    Returns (fetchPage n >>= f) tree a tree' ↔
      Returns (f (body.settled tree.pageSize)) tree a tree' :=
  (returns_fetchPage.mpr ⟨hn ▸ h.fetched, rfl⟩).bind_iff

theorem returns_stagePage :
    Returns (stagePage page) tree r tree' ↔
      (Buildable page tree.pageSize ∧ r = page.laidOut tree.pageSize) ∧ tree = tree' := by
  rw [stagePage, returns_get_bind, returns_ofOutcome, stagePhysicalPage_ok_iff]

theorem returns_publishPage :
    Returns (publishPage r) tree u tree' ↔ publishStagedPage tree r = tree' := by
  rw [publishPage, returns_get_bind, returns_set]

theorem returns_publish :
    Returns (publishPage (body.laidOut tree.pageSize)) tree () (store tree body) :=
  returns_publishPage.mpr rfl

theorem returns_publishPages_laidOut (hsize : pageSize = tree.pageSize) :
    Returns (publishPages (bodies.map (·.laidOut pageSize))) tree u tree' ↔
      storeAll tree bodies = tree' := by
  induction bodies generalizing tree with
  | nil =>
    rw [map_nil, publishPages, returns_pure]
    exact ⟨fun h => h.2, fun h => ⟨rfl, h⟩⟩
  | cons body bodies ih =>
    subst hsize
    rw [map_cons, publishPages, returns_bind]
    constructor
    · rintro ⟨v, t, hpublish, h⟩
      obtain rfl : store tree body = t := returns_publishPage.mp hpublish
      exact (@ih (store tree body) rfl).mp h
    · intro h
      exact ⟨(), store tree body, returns_publishPage.mpr rfl, (@ih (store tree body) rfl).mpr h⟩

theorem returns_stagePages :
    Returns (stagePages bodies) tree staged tree' ↔ ((∀ b ∈ bodies, Buildable b tree.pageSize) ∧
        staged = bodies.map (·.laidOut tree.pageSize)) ∧ tree = tree' := by
  induction bodies generalizing staged tree' with
  | nil =>
    rw [stagePages, returns_pure]
    simp [eq_comm]
  | cons body bodies ih =>
    rw [stagePages, returns_bind]
    constructor
    · rintro ⟨r, t, hstage, h⟩
      obtain ⟨⟨hb, rfl⟩, rfl⟩ := returns_stagePage.mp hstage
      obtain ⟨rs, t, hstages, h⟩ := returns_bind.mp h
      obtain ⟨⟨hbs, rfl⟩, rfl⟩ := ih.mp hstages
      obtain ⟨rfl, rfl⟩ := returns_pure.mp h
      exact ⟨⟨forall_mem_cons.mpr ⟨hb, hbs⟩, rfl⟩, rfl⟩
    · rintro ⟨⟨hbs, rfl⟩, rfl⟩
      obtain ⟨hb, hbs⟩ := forall_mem_cons.mp hbs
      refine ⟨_, tree, returns_stagePage.mpr ⟨⟨hb, rfl⟩, rfl⟩,
        returns_bind.mpr ⟨_, tree, ih.mpr ⟨⟨hbs, rfl⟩, rfl⟩, ?_⟩⟩
      exact returns_pure.mpr ⟨rfl, rfl⟩

theorem returns_takePageNumber_bind {f : UInt64 → TreeM β} :
    Returns (takePageNumber >>= f) tree b tree' ↔
      Returns (f tree.nextPageNumber) (bump tree) b tree' := Iff.rfl

theorem closerSplit_foldl_mem (h : splits.foldl (closerSplit midpoint) best = some k) :
    best = some k ∨ k ∈ splits := by
  induction splits generalizing best with
  | nil => exact .inl h
  | cons s splits ih =>
    rcases ih h with hbest | hmem
    · rw [closerSplit.eq_def] at hbest
      split at hbest
      · cases hbest
        exact .inr mem_cons_self
      · split at hbest
        · cases hbest
          exact .inr mem_cons_self
        · exact .inl hbest
    · exact .inr (mem_cons_of_mem _ hmem)

theorem isOk_build_iff :
    (buildIndexBtreePageBody body pageSize).isOk = true ↔ Buildable body pageSize := by
  constructor
  · intro h
    cases hb : buildIndexBtreePageBody body pageSize with
    | error d =>
      rw [hb] at h
      cases h
    | ok r => exact (buildIndexBtreePageBody_ok_iff.mp hb).1
  · intro h
    rw [buildIndexBtreePageBody_ok_iff.mpr ⟨h, rfl⟩]
    rfl

theorem findSerializableSplitPoint_some
    (h : findSerializableSplitPoint left right cells pageSize = some k) :
    0 < k ∧ k < cells.length ∧ Buildable { left with cells := cells.take k } pageSize ∧
      Buildable { right with cells := cells.drop k } pageSize := by
  rw [findSerializableSplitPoint] at h
  split at h
  · cases h
  · rcases closerSplit_foldl_mem h with hnone | hmem
    · cases hnone
    · obtain ⟨hrange, hfits⟩ := mem_filter.mp hmem
      rw [List.mem_range'_1] at hrange
      rw [splitFits, Bool.and_eq_true, isOk_build_iff, isOk_build_iff] at hfits
      exact ⟨by omega, by omega, hfits.1, hfits.2⟩

/-- The cells are cut where the split was found to fit. -/
structure Cut (left right : IndexBtreePageBody) (cells : List IndexBtreeCell)
    (pageSize : UInt32) (front back : List IndexBtreeCell) : Prop where
  found : findSerializableSplitPoint left right cells pageSize = some front.length
  parts : cells = front ++ back

theorem cut_of_found (h : findSerializableSplitPoint left right cells pageSize = some k) :
    Cut left right cells pageSize (cells.take k) (cells.drop k) := by
  have hlt := (findSerializableSplitPoint_some h).2.1
  refine ⟨?_, (List.take_append_drop k cells).symm⟩
  rw [h, List.length_take, Nat.min_eq_left hlt.le]

theorem Cut.sublists (h : Cut left right cells pageSize front back) :
    front.Sublist cells ∧ back.Sublist cells := by
  rw [h.parts]
  exact ⟨List.sublist_append_left _ _, List.sublist_append_right _ _⟩

theorem Cut.sound (h : Cut left right cells pageSize front back) :
    front ≠ [] ∧ back ≠ [] ∧ Buildable { left with cells := front } pageSize ∧
      Buildable { right with cells := back } pageSize := by
  obtain ⟨hpos, hlt, hl, hr⟩ := findSerializableSplitPoint_some h.found
  rw [h.parts, List.take_left] at hl
  rw [h.parts, drop_left] at hr
  rw [h.parts, length_append] at hlt
  exact ⟨length_pos_iff.mp hpos, length_pos_iff.mp (by omega), hl, hr⟩

theorem closerSplit_foldl_isSome (h : best.isSome ∨ splits ≠ []) :
    (splits.foldl (closerSplit midpoint) best).isSome := by
  induction splits generalizing best with
  | nil => exact h.resolve_right (fun hne => hne rfl)
  | cons s splits ih =>
    refine ih (.inl ?_)
    rw [closerSplit.eq_def]
    split
    · rfl
    · split <;> rfl

/-- Where some cut gives two pages that can be built, a cut is found. -/
theorem exists_cut_of_buildable (hcells : cells = front ++ back) (hfront : front ≠ [])
    (hback : back ≠ []) (hleft : Buildable { left with cells := front } pageSize)
    (hright : Buildable { right with cells := back } pageSize) :
    ∃ front back, Cut left right cells pageSize front back := by
  have hpos := length_pos_iff.mpr hfront
  have hpos' := length_pos_iff.mpr hback
  have hlength : cells.length = front.length + back.length := by rw [hcells, length_append]
  have hfits : splitFits left right cells pageSize front.length = true := by
    rw [splitFits, Bool.and_eq_true, isOk_build_iff, isOk_build_iff, hcells,
      List.take_left, drop_left]
    exact ⟨hleft, hright⟩
  obtain ⟨k, hk⟩ : ∃ k, findSerializableSplitPoint left right cells pageSize = some k := by
    rw [findSerializableSplitPoint, if_neg (by omega)]
    refine Option.isSome_iff_exists.mp (closerSplit_foldl_isSome (.inr ?_))
    refine List.ne_nil_of_mem (mem_filter.mpr ⟨?_, hfits⟩)
    rw [List.mem_range'_1]
    omega
  exact ⟨_, _, cut_of_found hk⟩

theorem Cut.returns (h : Cut left right cells pageSize front back)
    (hsize : pageSize = tree.pageSize) :
    Returns (splitOrRefuse left right cells code key detail) tree
      ({ left with cells := front }, { right with cells := back }) tree := by
  rw [splitOrRefuse, returns_get_bind, ← hsize, h.found]
  refine returns_pure.mpr ⟨?_, rfl⟩
  rw [h.parts, List.take_left, drop_left]

theorem exists_cut_of_returns {f : IndexBtreePageBody × IndexBtreePageBody → TreeM β}
    (h : Returns (splitOrRefuse left right cells code key detail >>= f) tree b tree') :
    ∃ front back, Cut left right cells tree.pageSize front back := by
  obtain ⟨halves, t, h, -⟩ := returns_bind.mp h
  rw [splitOrRefuse, returns_get_bind] at h
  split at h
  · exact (returns_treeError.mp h).elim
  · next k hk => exact ⟨_, _, cut_of_found hk⟩

end Steps

end ScratchBird.Btree
