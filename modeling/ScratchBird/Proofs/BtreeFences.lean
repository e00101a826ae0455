import ScratchBird.Index.BtreeDelete
import ScratchBird.Proofs.BtreeValidate

/-!
# Fences above a leaf that changed

When a deletion has changed a leaf, borrowed a cell for it or merged it with a
neighbour, the levels above only have to name the leaves as they now are. A page
is never split on the way up, so the entry of a leaf is all the levels need to
know: they are stored with the new fences or the call is refused. A root whose
last but one child is gone gives way to the other.
-/

namespace ScratchBird.Btree

open Lib List

variable {tree tree' : IndexBtreePhysicalTree} {height : Nat} {row X Y : Level}
  {levels levels' : List Level} {U old new V : List Listing} {e e₁ e₂ : Listing} {holder n : UInt64}
  {path rest : List UInt64} {p q child page kept : IndexBtreePageBody} {us vs : List IndexBtreeCell}
  {result r : IndexBtreePhysicalDeleteResult}
  {climb : IndexBtreePageBody → IndexBtreePhysicalDeleteResult →
    TreeM IndexBtreePhysicalDeleteResult}

/-! ## Fences above a leaf -/

/-- The levels after the entries of one holder were brought up to date. -/
structure Refenced (tree : IndexBtreePhysicalTree) (height : Nat) (entries : List Listing)
    (levels : List Level) (holder : UInt64) (path : List UInt64) (tree' : IndexBtreePhysicalTree)
    (levels' : List Level) : Prop where
  written : Rewritten tree levels.flatten tree' levels'.flatten
  above : Above tree.rootPageNumber height entries levels'
  path : PathUp levels' holder path
  empty : levels'.isEmpty = levels.isEmpty
  counts : ∀ q ∈ levels'.flatten, ∃ p ∈ levels.flatten, q.cells.length ≤ p.cells.length

theorem returns_stagePageForDelete {u : Unit} :
    Returns (stagePageForDelete page) tree u tree' ↔
      Buildable page tree.pageSize ∧ store tree page = tree' := by
  rw [stagePageForDelete, returns_bind]
  constructor
  · rintro ⟨staged, t, hstage, h⟩
    obtain ⟨⟨hb, rfl⟩, rfl⟩ := returns_stagePage.mp hstage
    exact ⟨hb, returns_publishPage.mp h⟩
  · rintro ⟨hb, rfl⟩
    exact ⟨_, tree, returns_stagePage.mpr ⟨⟨hb, rfl⟩, rfl⟩, returns_publishPage.mpr rfl⟩

theorem returns_stagePageForDelete_bind {α : Type} {a : α} {f : Unit → TreeM α} :
    Returns (stagePageForDelete page >>= f) tree a tree' ↔ Buildable page tree.pageSize ∧
        Returns (f ()) (store tree page) a tree' := by
  rw [returns_bind]
  constructor
  · rintro ⟨u, t, hstage, h⟩
    obtain ⟨hb, rfl⟩ := returns_stagePageForDelete.mp hstage
    exact ⟨hb, h⟩
  · rintro ⟨hb, h⟩
    exact ⟨(), _, returns_stagePageForDelete.mpr ⟨hb, rfl⟩, h⟩

theorem returns_settleParent :
    Returns (settleParent p result climb) tree r tree' ↔ Buildable p tree.pageSize ∧
        Returns (if p.pageKind = .root ∧ p.cells.length = 1 ∧ p.treeLevel > 0 then
          collapseRootToOnlyChild p result
          else climb p result) (store tree p) r tree' :=
  returns_stagePageForDelete_bind

/-- One level with its fences brought up to date, under what the levels above it
have become. -/
theorem Stale.refenced (h : Stale tree height (row :: levels) U old new V holder path)
    (hsound : Sound tree) (hf : Focus row levels U old V path X p Y us vs rest)
    (hholder : p.pageNumber = holder) (hq : q = p.refenced tree.pageSize us new vs)
    (hb : Buildable q tree.pageSize) (hwide : levels.isEmpty = true →
      2 ≤ (us ++ (new.map Prod.fst ++ vs)).length) (hfewer : new.length ≤ old.length)
    (hnext : Refenced (store tree q) (height + 1)
      (X.map (·.up) ++ ([q.up] ++ Y.map (·.up))) levels p.parentPageNumber rest tree' levels') :
    Refenced tree height (U ++ (new ++ V)) (row :: levels) holder path tree'
      ((X ++ q :: Y) :: levels') := by
  subst hq
  have hwritten : Rewritten tree (row ++ levels.flatten) _ (_ ++ levels.flatten) :=
    @one_written tree [] row X Y levels.flatten p (p.refenced tree.pageSize us new vs) hsound
      h.stored h.numbers hf.row rfl rfl hb
  have hcounts : ∀ b ∈ X ++ p.refenced tree.pageSize us new vs :: Y,
      ∃ a ∈ row, b.cells.length ≤ a.cells.length := by
    rw [hf.row]
    intro b hb
    rcases mem_append.mp hb with hb | hb
    · exact ⟨b, mem_append_left _ hb, le_refl _⟩
    · rcases mem_cons.mp hb with rfl | hb
      · refine ⟨p, by simp, ?_⟩
        rw [hf.cells]
        simpa [IndexBtreePageBody.refenced] using hfewer
      · exact ⟨b, by simp [hb], le_refl _⟩
  refine ⟨hwritten.beside hnext.written, ⟨?_, ?_, ?_⟩, ?_, rfl, ?_⟩
  · rw [hf.down_refenced]
    rw [hholder]
    exact h.owned.2
  · rw [hnext.empty]
    exact hf.levelFits h hwide
  · rw [map_append]
    exact hnext.above
  · refine ⟨p.refenced tree.pageSize us new vs, by simp, hholder, rest, ?_, hnext.path⟩
    rw [hf.path, hholder]
  · intro b hb
    rw [flatten_cons] at hb ⊢
    rcases mem_append.mp hb with hb | hb
    · obtain ⟨a, ha, hle⟩ := hcounts b hb
      exact ⟨a, mem_append_left _ ha, hle⟩
    · obtain ⟨a, ha, hle⟩ := hnext.counts b hb
      exact ⟨a, mem_append_right _ ha, hle⟩

/-- Nothing lies above the root. -/
theorem Stale.at_root {e' : Listing} (h : Stale tree height [] U [e] [e'] V holder path)
    (hsound : Sound tree) (hchild : e.1.childPageNumber = e'.1.childPageNumber) :
    Refenced tree height (U ++ ([e'] ++ V)) [] holder path tree [] := by
  refine ⟨⟨hsound, SameSetup.refl tree, ?_, nodup_nil, fun b hb hn => ⟨hb, hn⟩⟩, h.top hchild,
    h.path, rfl, forall_mem_nil _⟩
  exact forall_mem_nil _

/-- A changed page's fence is carried through the levels to the root. -/
def Carried (levels : List Level) : Prop :=
  ∀ {child : IndexBtreePageBody} {tree tree' : IndexBtreePhysicalTree}
    {height : Nat} {U V : List Listing} {e : Listing} {holder : UInt64}
    {path : List UInt64} {result r : IndexBtreePhysicalDeleteResult}, 0 < height → Sound tree →
    Stale tree height levels U [e] [(fenceCellForPage child, holder)] V holder path →
    e.1.childPageNumber = child.pageNumber →
    Returns (updateParentAfterLeafMutation path child result) tree r tree' →
    ∃ levels', Refenced tree height
      (U ++ ([(fenceCellForPage child, holder)] ++ V)) levels holder path tree' levels'

/-- Once the parent of changed entries is stored, its own entry is what the levels
above it have to take. -/
theorem Stale.next_level (h : Stale tree height (row :: levels) U old new V holder path)
    (hsound : Sound tree) (hf : Focus row levels U old V path X p Y us vs rest)
    (hq : q = p.refenced tree.pageSize us new vs) (hb : Buildable q tree.pageSize) :
    Sound (store tree q) ∧ Stale (store tree q) (height + 1) levels (X.map (·.up)) [p.up]
        [(fenceCellForPage q, p.parentPageNumber)] (Y.map (·.up)) p.parentPageNumber rest := by
  subst hq
  have hwritten := @one_written tree [] row X Y levels.flatten p
    (p.refenced tree.pageSize us new vs) hsound h.stored h.numbers hf.row rfl rfl hb
  refine ⟨hwritten.sound, hf.next h (Z := [p.refenced tree.pageSize us new vs]) rfl ?_
    (flatMap_singleton _ _) (cons_ne_nil _ _)
    (forall_mem_singleton.mpr (Focus.refenced_ne_nil h)) (forall_mem_singleton.mpr rfl)⟩
  exact fun b hb => hwritten.stored b (by simp [hb])

/-- The parent of changed entries is stored. Then its own fence is carried on,
unless it is the root and has a single child left. -/
theorem Stale.settle (hcarried : Carried levels) (hpos : 0 < height)
    (h : Stale tree height (row :: levels) U old new V holder path)
    (hsound : Sound tree) (hf : Focus row levels U old V path X p Y us vs rest)
    (hholder : p.pageNumber = holder) (hq : q = p.refenced tree.pageSize us new vs)
    (hfewer : new.length ≤ old.length)
    (hr : Returns (settleParent q result (updateParentAfterLeafMutation rest)) tree r tree') :
    (∃ levels', Refenced tree height (U ++ (new ++ V)) (row :: levels) holder path tree' levels') ∨
    (q.pageKind = .root ∧ q.cells.length = 1) ∧ Buildable q tree.pageSize ∧
      Returns (collapseRootToOnlyChild q result) (store tree q) r tree' := by
  obtain ⟨hb, hr⟩ := returns_settleParent.mp hr
  split at hr
  · next hroot => exact .inr ⟨⟨hroot.1, hroot.2.1⟩, hb, hr⟩
  · next hnot =>
    left
    subst hq
    have hwide : levels.isEmpty = true → 2 ≤ (p.refenced tree.pageSize us new vs).cells.length := by
      intro htop
      have hlevel : p.treeLevel > 0 := by
        rw [gt_iff_lt, UInt16.lt_iff_toNat_lt]
        exact (h.above.2.1.level p hf.mem).symm ▸ hpos
      have hone : (p.refenced tree.pageSize us new vs).cells.length ≠ 1 :=
        fun hone => hnot ⟨(hf.root_iff h).mpr htop, hone, hlevel⟩
      have hne : (p.refenced tree.pageSize us new vs).cells ≠ [] := Focus.refenced_ne_nil h
      have hlength := length_pos_iff.mpr hne
      omega
    obtain ⟨hsound', hstale⟩ := h.next_level hsound hf rfl hb
    obtain ⟨levels', hnext⟩ := hcarried (Nat.succ_pos height) hsound' hstale rfl hr
    exact ⟨_, h.refenced hsound hf hholder rfl hb hwide hfewer hnext⟩

/-- The step at one level: the parent with the new fence is settled. -/
theorem updateParent_cons (h : Stale tree height (row :: levels) U [e]
      [(fenceCellForPage child, holder)] V holder path)
    (hf : Focus row levels U [e] V path X p Y us vs rest)
    (hnumber : e.1.childPageNumber = child.pageNumber) :
    Returns (updateParentAfterLeafMutation path child result) tree r tree' ↔
      Returns (settleParent (p.refenced tree.pageSize us
        [(fenceCellForPage child, holder)] vs) result
        (updateParentAfterLeafMutation rest)) tree r tree' := by
  have hp := hf.stored h
  obtain ⟨hreplaced, hsorted⟩ := hf.replaced h hnumber
  rw [hf.path, updateParentAfterLeafMutation, hp.returns_fetch_bind rfl]
  simp only [hreplaced, hsorted]
  rfl

/-- The root keeps its fences when one of them changes. -/
theorem Focus.keeps_root (hf : Focus row levels U [e] V path X p Y us vs rest)
    (h : Stale tree height (row :: levels) U [e] [(fenceCellForPage child, holder)] V holder path)
    (hq : q = p.refenced tree.pageSize us [(fenceCellForPage child, holder)] vs) :
    ¬(q.pageKind = .root ∧ q.cells.length = 1) := by
  rintro ⟨hroot, hone⟩
  subst hq
  have hwide := hf.wide h (Nat.le_refl 1) ((hf.root_iff h).mp hroot)
  have hlength : (us ++ ([(fenceCellForPage child, holder)].map Prod.fst ++ vs)).length = 1 := hone
  omega

/-- The induction is on the levels. The root keeps its two fences, so it never
gives way here. -/
theorem carried (levels : List Level) : Carried levels := by
  induction levels with
  | nil =>
    intro child tree tree' height U V e holder path result r _ hsound h hnumber hr
    have hpath : path = [] := h.path
    rw [hpath] at hr
    obtain ⟨-, rfl⟩ := returns_pure.mp hr
    exact ⟨[], h.at_root hsound hnumber⟩
  | cons row levels ih =>
    intro child tree tree' height U V e holder path result r hpos hsound h hnumber hr
    obtain ⟨X, p, Y, us, vs, rest, hf, hholder⟩ := h.focus
    rcases h.settle ih hpos hsound hf hholder rfl (le_refl 1)
      ((updateParent_cons h hf hnumber).mp hr) with hdone | ⟨hone, -, -⟩
    · exact hdone
    · exact absurd hone (hf.keeps_root h rfl)

/-! ## A fence taken away -/

/-- The root once all its children but one are gone. -/
structure OnlyChild (tree : IndexBtreePhysicalTree) (levels : List Level) (U V : List Listing)
    (kept q : IndexBtreePageBody) : Prop where
  alone : U = [] ∧ V = []
  cells : q.cells = [fenceCellForPage kept]
  kind : q.pageKind = .root
  number : q.pageNumber = tree.rootPageNumber
  held : q.pageNumber ∈ pageNumbers levels.flatten
  storable : Storable tree q

/-- The only child in the place of the root. -/
def IndexBtreePageBody.asRoot (m : IndexBtreePageBody) (pageSize : UInt32)
    (root : UInt64) : IndexBtreePageBody :=
  { m.settled pageSize with
    pageNumber := root
    parentPageNumber := 0
    leftSiblingPageNumber := 0
    rightSiblingPageNumber := 0
    pageKind := .root }

theorem Focus.children_nodup (hf : Focus row levels U old V path X p Y us vs rest)
    (h : Stale tree height (row :: levels) U old new V holder path) :
    ((us ++ (old.map Prod.fst ++ vs)).map (·.childPageNumber)).Nodup := by
  have hnodup := h.children
  rw [hf.before, hf.after] at hnodup
  simp only [map_append, map_map, append_assoc] at hnodup ⊢
  have hleft := hnodup.of_append_right
  rw [← append_assoc, ← append_assoc] at hleft
  rw [← append_assoc]
  exact hleft.of_append_left

/-- The parent that loses a fence. -/
theorem Focus.without (hf : Focus row levels U [e₁, e₂] V path X p Y us vs rest)
    (h : Stale tree height (row :: levels) U [e₁, e₂]
      [(fenceCellForPage kept, holder)] V holder path)
    (h₁ : e₁.1.childPageNumber = kept.pageNumber) (h₂ : e₂.1.childPageNumber = n) :
    ∃ fences, removeFence n p.cells = some fences ∧
      replaceFence kept fences = some (us ++ fenceCellForPage kept :: vs) := by
  have hnodup := hf.children_nodup h
  simp only [map_append, map_cons, h₁, h₂] at hnodup
  obtain ⟨-, hrest, hus⟩ := nodup_append'.mp hnodup
  obtain ⟨hkept, hvs⟩ := nodup_cons.mp hrest
  refine ⟨us ++ e₁.1 :: vs, ?_, ?_⟩
  · have hcells : p.cells = (us ++ [e₁.1]) ++ e₂.1 :: vs := by
      rw [hf.cells]
      simp
    have hremoved := @removeFence_append n e₂.1 (us ++ [e₁.1]) vs ?_ ?_ h₂
    · rw [hcells, hremoved]
      simp
    · intro u hu heq
      rcases mem_append.mp hu with hu | hu
      · refine hus (mem_map_of_mem hu) ?_
        rw [heq]
        simp
      · rw [mem_singleton.mp hu, h₁] at heq
        exact hkept (by rw [heq]; exact mem_cons_self)
    · intro v hv heq
      exact (nodup_cons.mp hvs).1 (heq ▸ mem_map_of_mem hv)
  · refine replaceFence_append ?_ h₁
    intro u hu heq
    refine hus (mem_map_of_mem hu) ?_
    rw [heq]
    exact mem_cons_self

/-- Two neighbours do not hang under nothing. -/
theorem Stale.two_below (h : Stale tree height levels U [e₁, e₂] new V holder path) :
    ∃ row upper, levels = row :: upper := by
  cases levels with
  | cons row upper => exact ⟨row, upper, rfl⟩
  | nil =>
    obtain ⟨f, hentries, -⟩ := h.above
    have hlength := congrArg List.length hentries
    simp only [length_append, length_cons] at hlength
    omega

/-- The parent of the two with the one fence left is settled. -/
theorem removeChildFence_cons (h : Stale tree height (row :: levels) U [e₁, e₂]
      [(fenceCellForPage kept, holder)] V holder path)
    (hf : Focus row levels U [e₁, e₂] V path X p Y us vs rest)
    (h₁ : e₁.1.childPageNumber = kept.pageNumber) (h₂ : e₂.1.childPageNumber = n) :
    Returns (removeChildFenceAndMaybeCollapse path kept n result) tree r tree' ↔
      Returns (settleParent (p.refenced tree.pageSize us
        [(fenceCellForPage kept, holder)] vs) result
        (updateParentAfterLeafMutation rest)) tree r tree' := by
  have hp := hf.stored h
  obtain ⟨fences, hremoved, hreplaced⟩ := hf.without h h₁ h₂
  have hsorted : sortCells (us ++ fenceCellForPage kept :: vs) =
      us ++ fenceCellForPage kept :: vs := sortCells_of_ascending (hf.ascending h)
  have hcells : removeFence n (p.settled tree.pageSize).cells = some fences := hremoved
  rw [hf.path, removeChildFenceAndMaybeCollapse, hp.returns_fetch_bind rfl]
  simp only [hcells, hreplaced, Option.getD_some, hsorted]
  rfl

/-- A root with one fence left. -/
theorem Stale.only_child (h : Stale tree height (row :: levels) U old
      [(fenceCellForPage kept, holder)] V holder path)
    (hf : Focus row levels U old V path X p Y us vs rest)
    (hq : q = p.refenced tree.pageSize us [(fenceCellForPage kept, holder)] vs)
    (hkind : q.pageKind = .root) (hone : q.cells.length = 1) (hb : Buildable q tree.pageSize) :
    OnlyChild tree (row :: levels) U V kept q := by
  subst hq
  have hp := hf.stored h
  have hlength : (us ++ fenceCellForPage kept :: vs).length = 1 := hone
  obtain ⟨rfl, rfl⟩ : us = [] ∧ vs = [] := by
    rw [length_append, length_cons] at hlength
    exact ⟨List.length_eq_zero_iff.mp (by omega), List.length_eq_zero_iff.mp (by omega)⟩
  obtain rfl := List.isEmpty_iff.mp ((hf.root_iff h).mp hkind)
  obtain ⟨rfl, rfl, hnumber⟩ := hf.alone h
  refine ⟨⟨hf.before, hf.after⟩, rfl, hkind, hnumber, ?_, hb, hp.index⟩
  exact mem_map_of_mem (f := (·.pageNumber)) (mem_append_left _ hf.mem)

/-- Of two neighbours one is gone: the levels are brought up to date, or the
other is the only child of the root. -/
theorem removeChildFenceAndMaybeCollapse_ok (hpos : 0 < height) (hsound : Sound tree)
    (h : Stale tree height levels U [e₁, e₂] [(fenceCellForPage kept, holder)] V holder path)
    (h₁ : e₁.1.childPageNumber = kept.pageNumber) (h₂ : e₂.1.childPageNumber = n)
    (hr : Returns (removeChildFenceAndMaybeCollapse path kept n result) tree r tree') :
    (∃ levels', Refenced tree height
      (U ++ ([(fenceCellForPage kept, holder)] ++ V)) levels holder path tree' levels') ∨
    ∃ q, OnlyChild tree levels U V kept q ∧
      Returns (collapseRootToOnlyChild q result) (store tree q) r tree' := by
  obtain ⟨row, upper, rfl⟩ := h.two_below
  obtain ⟨X, p, Y, us, vs, rest, hf, hholder⟩ := h.focus
  rcases h.settle (carried upper) hpos hsound hf hholder rfl (Nat.le_succ 1)
    ((removeChildFence_cons h hf h₁ h₂).mp hr) with hdone | ⟨⟨hkind, hone⟩, hb, hr⟩
  · exact .inl hdone
  · exact .inr ⟨_, h.only_child hf rfl hkind hone hb, hr⟩

/-- The root gives way to its only child, a leaf. -/
theorem returns_collapseRootToOnlyChild (hq : OnlyChild tree levels U V kept q)
    (hkept : Stored (store tree q) kept) (hlevel : kept.treeLevel = 0) :
    Returns (collapseRootToOnlyChild q result) (store tree q) r tree' ↔
      Buildable (kept.asRoot tree.pageSize tree.rootPageNumber) tree.pageSize ∧
        { result with rootCollapsed := true, rootPageNumber := tree.rootPageNumber } = r ∧
        store (store tree q) (kept.asRoot tree.pageSize tree.rootPageNumber) =
          tree' := by
  have hleaf : ¬(kept.settled (store tree q).pageSize).treeLevel > 0 := by
    show ¬kept.treeLevel > 0
    rw [hlevel]
    decide
  rw [collapseRootToOnlyChild, hq.cells]
  simp only [hq.kind, ne_eq, not_true, if_false]
  rw [hkept.returns_fetch_bind (n := (fenceCellForPage kept).childPageNumber) rfl, if_neg hleaf,
    ← hq.number]
  exact returns_stagePageForDelete_bind.trans (and_congr_right fun _ => returns_pure)

end ScratchBird.Btree
