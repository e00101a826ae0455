import Mathlib.Data.List.Flatten
import Mathlib.Data.List.Perm.Basic
import Mathlib.Data.List.Sort

/-!
# Trees as stacks of levels

A tree whose nodes at one depth stand in a row can be kept as its rows. A node
lists its children from left to right (`down`), a child knows the entry it is
listed by (`up`), and one row lies over another when the lists of the upper row,
joined, are the entries of the lower row. Replacing, splitting or removing a
node is then an edit of a row, and the rows above see it as an edit of one
entry.

A traversal wants the same tree as nested subtrees. A `Forest` is a run of
neighbours of one row with everything below them; the rows of a tree give the
forest of its root.
-/

namespace ScratchBird.Lib

open List

variable {π ι ν : Type} {row A B leaves : List π} {height : Nat} {numbers : List ν} {p : π}
  {next previous : ν}

/-- The node in whose list an entry of the joined lists stands. -/
theorem flatMap_eq_append_cons {down : π → List ι} {U V : List ι} {e : ι}
    (h : row.flatMap down = U ++ e :: V) :
    ∃ X p Y u v, row = X ++ p :: Y ∧ down p = u ++ e :: v ∧
      U = X.flatMap down ++ u ∧ V = v ++ Y.flatMap down := by
  induction row generalizing U with
  | nil => exact absurd h (by simp)
  | cons p row ih =>
    rcases List.append_eq_append_iff.mp h with ⟨c, hU, hrow⟩ | ⟨c, hdown, hrest⟩
    · obtain ⟨X, q, Y, u, v, rfl, hq, rfl, rfl⟩ := ih hrow
      refine ⟨p :: X, q, Y, u, v, rfl, hq, ?_, rfl⟩
      rw [hU, flatMap_cons, append_assoc]
    · cases c with
      | nil =>
        obtain ⟨X, q, Y, u, v, rfl, hq, hU, rfl⟩ := ih (U := []) hrest.symm
        refine ⟨p :: X, q, Y, u, v, rfl, hq, ?_, rfl⟩
        rw [flatMap_cons, append_assoc, ← hU, append_nil, hdown, append_nil]
      | cons e' v =>
        obtain ⟨rfl, hV⟩ := List.cons.inj hrest
        exact ⟨[], p, row, U, v, rfl, hdown, rfl, hV⟩

/-- Other nodes in the place of one. -/
theorem forall_replaced {P : π → Prop} {Z : List π} (hZ : ∀ z ∈ Z, P z)
    (h : ∀ q ∈ A ++ p :: B, P q) : ∀ q ∈ A ++ (Z ++ B), P q := by
  obtain ⟨hA, hB⟩ := forall_mem_append.mp h
  exact forall_mem_append.mpr ⟨hA, forall_mem_append.mpr ⟨hZ, (forall_mem_cons.mp hB).2⟩⟩

/-- There are no more rows than nodes where every row has one. -/
theorem length_le_flatten {rows : List (List π)} (h : ∀ row ∈ rows, row ≠ []) :
    rows.length ≤ rows.flatten.length := by
  induction rows with
  | nil => exact Nat.le_refl 0
  | cons row rows ih =>
    obtain ⟨hrow, hrows⟩ := forall_mem_cons.mp h
    have hpos := length_pos_iff.mpr hrow
    have hrest := ih hrows
    rw [flatten_cons, length_append, length_cons]
    omega

/-! ## Forests -/

section Forests

variable {down : π → List ι} {up : π → ι} {number : π → ν} {fits : Nat → π → Prop}

/-- Neighbours of one row, at a height, with their leaves from left to right and
the numbers of all their nodes, parents first. -/
inductive Forest (down : π → List ι) (up : π → ι) (number : π → ν)
    (fits : Nat → π → Prop) : Nat → List π → List π → List ν → Prop where
  | nil (height : Nat) : Forest down up number fits height [] [] []
  | leaf {p : π} {row leaves : List π} {numbers : List ν} (hfits : fits 0 p)
      (rest : Forest down up number fits 0 row leaves numbers) :
      Forest down up number fits 0 (p :: row) (p :: leaves) (number p :: numbers)
  | node {height : Nat} {p : π} {row children leaves leaves' : List π}
      {numbers numbers' : List ν} (hfits : fits (height + 1) p) (hdown : down p = children.map up)
      (below : Forest down up number fits height children leaves numbers)
      (rest : Forest down up number fits (height + 1) row leaves' numbers') :
      Forest down up number fits (height + 1) (p :: row) (leaves ++ leaves')
        (number p :: (numbers ++ numbers'))

theorem forest_of_leaves (h : ∀ p ∈ row, fits 0 p) :
    Forest down up number fits 0 row row (row.map number) := by
  induction row with
  | nil => exact .nil 0
  | cons p row ih =>
    obtain ⟨hp, hrow⟩ := forall_mem_cons.mp h
    exact .leaf hp (ih hrow)

theorem Forest.split (h : Forest down up number fits height (A ++ B) leaves numbers) :
    ∃ L L' N N', leaves = L ++ L' ∧ numbers = N ++ N' ∧ Forest down up number fits height A L N ∧
      Forest down up number fits height B L' N' := by
  induction A generalizing leaves numbers with
  | nil => exact ⟨[], leaves, [], numbers, rfl, rfl, .nil height, h⟩
  | cons p A ih =>
    cases h with
    | leaf hfits rest =>
      obtain ⟨L, L', N, N', rfl, rfl, hA, hB⟩ := ih rest
      exact ⟨p :: L, L', number p :: N, N', rfl, rfl, .leaf hfits hA, hB⟩
    | @node _ _ _ _ l₀ _ n₀ _ hfits hdown below rest =>
      obtain ⟨L, L', N, N', rfl, rfl, hA, hB⟩ := ih rest
      refine ⟨l₀ ++ L, L', number p :: (n₀ ++ N), N', ?_, ?_, .node hfits hdown below hA, hB⟩
      · rw [append_assoc]
      · rw [cons_append, append_assoc]

section

variable (h : Forest down up number fits height row leaves numbers)
include h

/-- Every node of a forest has its own part of the leaves. -/
theorem Forest.part (hp : p ∈ row) :
    ∃ L N, Forest down up number fits height [p] L N ∧ L ⊆ leaves := by
  obtain ⟨A, B, rfl⟩ := List.append_of_mem hp
  obtain ⟨L, L', N, N', rfl, rfl, -, hrest⟩ := h.split
  obtain ⟨M, M', K, K', rfl, rfl, hone, -⟩ := Forest.split (A := [p]) (B := B) hrest
  exact ⟨M, K, hone, fun l hl => mem_append_right _ (mem_append_left _ hl)⟩

end

/-- A row over the neighbours of a forest: the same leaves, and the numbers of
the row besides those of the forest. -/
theorem Forest.raise {children : List π}
    (h : Forest down up number fits height children leaves numbers)
    (hover : row.flatMap down = children.map up) (hfits : ∀ p ∈ row, fits (height + 1) p) :
    ∃ numbers', Forest down up number fits (height + 1) row leaves numbers' ∧
      numbers'.Perm (row.map number ++ numbers) := by
  induction row generalizing children leaves numbers with
  | nil =>
    obtain rfl : children = [] := map_eq_nil_iff.mp hover.symm
    cases h with
    | nil => exact ⟨[], .nil _, List.Perm.refl _⟩
  | cons p row ih =>
    obtain ⟨hp, hrow⟩ := forall_mem_cons.mp hfits
    obtain ⟨M, children, rfl, hM, hrest⟩ := map_eq_append_iff.mp hover.symm
    obtain ⟨L, L', N, N', rfl, rfl, hbelow, hothers⟩ := h.split
    obtain ⟨N'', hforest, hperm⟩ := ih hothers hrest.symm hrow
    refine ⟨number p :: (N ++ N''), .node hp hM.symm hbelow hforest, ?_⟩
    rw [map_cons, cons_append]
    refine List.Perm.cons _ ((hperm.append_left N).trans ?_)
    rw [← append_assoc, ← append_assoc]
    exact List.perm_append_comm.append_right N'

end Forests

/-! ## Linked rows -/

section Links

variable {number left right : π → ν}

/-- The number of the first node of a row, or what comes behind the row. -/
def firstOr (number : π → ν) (row : List π) (next : ν) : ν := (row.head?.map number).getD next

/-- The number of the last node of a row, or what comes before the row. -/
def lastOr (number : π → ν) (row : List π) (previous : ν) : ν :=
  (row.getLast?.map number).getD previous

/-- Every node names its neighbours, and the ends name what is given. -/
def Linked (number left right : π → ν) : ν → List π → ν → Prop
  | _, [], _ => True
  | previous, p :: row, next =>
    left p = previous ∧ right p = firstOr number row next ∧
      Linked number left right (number p) row next

theorem firstOr_append :
    firstOr number (A ++ B) next = firstOr number A (firstOr number B next) := by
  cases A with
  | nil => rfl
  | cons p A => rfl

theorem lastOr_cons : lastOr number (p :: row) previous = lastOr number row (number p) := by
  cases row with
  | nil => rfl
  | cons q row =>
    rfl

theorem linked_append :
    Linked number left right previous (A ++ B) next ↔
      Linked number left right previous A (firstOr number B next) ∧
        Linked number left right (lastOr number A previous) B next := by
  induction A generalizing previous with
  | nil => exact ⟨fun h => ⟨trivial, h⟩, fun h => h.2⟩
  | cons p A ih =>
    rw [cons_append, Linked, Linked, ih, firstOr_append, lastOr_cons]
    tauto

/-- Links are a matter of the numbers and the links alone. -/
theorem linked_congr (h : A.map (fun p => (number p, left p, right p)) =
      B.map (fun p => (number p, left p, right p))) :
    Linked number left right previous A next ↔ Linked number left right previous B next := by
  induction A generalizing B previous with
  | nil =>
    obtain rfl : B = [] := map_eq_nil_iff.mp h.symm
    exact Iff.rfl
  | cons p A ih =>
    obtain ⟨q, B, rfl, hq, hrest⟩ := List.map_eq_cons_iff.mp h.symm
    have hfirst : firstOr number A next = firstOr number B next := by
      have hnumbers : A.map number = B.map number := by
        have := congrArg (List.map Prod.fst) hrest
        rw [map_map, map_map] at this
        exact this.symm
      rw [firstOr, firstOr, ← List.head?_map, ← List.head?_map, hnumbers]
    obtain ⟨hn, hl, hr⟩ : number q = number p ∧ left q = left p ∧
        right q = right p := by
      rw [Prod.mk.injEq, Prod.mk.injEq] at hq
      exact hq
    rw [Linked, Linked, ih hrest.symm, hn, hl, hr, hfirst]

end Links

end ScratchBird.Lib
