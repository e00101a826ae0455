import Mathlib
import Mathlib.Data.List.Sort

/-!
# Extents of consecutive numbers

A list of extents is read as the multiset of the numbers they contain: `cover l n`
counts the extents of `l` that contain `n`. Everything an allocator does to a list
of extents is then an equation between counts. Cutting an extent in two, putting
two neighbours together, reordering and dropping empty extents leave the count
alone, and moving an extent from one list to another moves its part of the count.

Disjointness is a bound on the count, so it need not be carried along on its own:
two lists with the same count are both disjoint or both not.
-/

namespace ScratchBird.Lib

variable {n : Nat}

structure Extent where
  start : Nat
  count : Nat
  deriving DecidableEq

namespace Extent

def members (e : Extent) : Set Nat := Set.Ico e.start (e.start + e.count)

theorem mem_members {e : Extent} : n ∈ e.members ↔ e.start ≤ n ∧ n < e.start + e.count := Iff.rfl

/-- One for the numbers in the extent, zero for the others. -/
def indicator (e : Extent) (n : Nat) : Nat :=
  if e.start ≤ n ∧ n < e.start + e.count then 1 else 0

theorem indicator_pos {e : Extent} : 0 < e.indicator n ↔ n ∈ e.members := by
  rw [indicator, mem_members]
  split <;> simp_all

theorem indicator_empty {e : Extent} (h : e.count = 0) (n : Nat) : e.indicator n = 0 := by
  rw [indicator, if_neg (by omega)]

/-- An extent is its first part and its rest. -/
theorem indicator_split {e : Extent} {k : Nat} (h : k ≤ e.count) (n : Nat) :
    e.indicator n = (Extent.mk e.start k).indicator n +
        (Extent.mk (e.start + k) (e.count - k)).indicator n := by
  simp only [indicator]
  split_ifs <;> omega

end Extent

/-- How many of the extents contain the number. -/
def cover (l : List Extent) (n : Nat) : Nat := (l.map (·.indicator n)).sum

variable {l l' : List Extent} {e : Extent}

@[simp] theorem cover_nil : cover [] n = 0 := rfl

@[simp] theorem cover_cons : cover (e :: l) n = e.indicator n + cover l n := rfl

@[simp] theorem cover_append : cover (l ++ l') n = cover l n + cover l' n := by simp [cover]

theorem cover_perm (h : l.Perm l') : cover l n = cover l' n := (h.map _).sum_nat

theorem cover_pos : 0 < cover l n ↔ ∃ e ∈ l, n ∈ e.members := by
  induction l with
  | nil => simp
  | cons e rest ih =>
    rw [cover_cons]
    constructor
    · intro h
      by_cases he : 0 < e.indicator n
      · exact ⟨e, List.mem_cons_self, Extent.indicator_pos.mp he⟩
      · obtain ⟨e', hmem, hin⟩ := ih.mp (by omega)
        exact ⟨e', List.mem_cons_of_mem _ hmem, hin⟩
    · intro ⟨e', hmem, hin⟩
      cases hmem with
      | head =>
        have := Extent.indicator_pos.mpr hin
        omega
      | tail _ hmem =>
        have := ih.mpr ⟨e', hmem, hin⟩
        omega

/-- No number is in two of the extents. -/
def PairwiseDisjoint (l : List Extent) : Prop :=
  l.Pairwise fun e e' => Disjoint e.members e'.members

theorem pairwiseDisjoint_iff : PairwiseDisjoint l ↔ ∀ n, cover l n ≤ 1 := by
  induction l with
  | nil => simp [PairwiseDisjoint]
  | cons e rest ih =>
    have hbound : ∀ n, e.indicator n ≤ 1 := by
      intro n
      rw [Extent.indicator]
      split <;> omega
    rw [PairwiseDisjoint, List.pairwise_cons, ← PairwiseDisjoint, ih]
    constructor
    · intro ⟨hdisjoint, hrest⟩ n
      rw [cover_cons]
      by_cases he : 0 < e.indicator n
      · -- A number of the first extent is in no other.
        have hnone : ¬0 < cover rest n := by
          intro hpos
          obtain ⟨e', hmem, hin⟩ := cover_pos.mp hpos
          exact Set.disjoint_left.mp (hdisjoint e' hmem) (Extent.indicator_pos.mp he) hin
        have := hbound n
        omega
      · have := hrest n
        omega
    · intro h
      constructor
      · intro e' hmem
        rw [Set.disjoint_left]
        intro n hin hin'
        have he := Extent.indicator_pos.mpr hin
        have hrest : 0 < cover rest n := cover_pos.mpr ⟨e', hmem, hin'⟩
        have := h n
        rw [cover_cons] at this
        omega
      · intro n
        have := h n
        rw [cover_cons] at this
        omega

/-- Two lists with the same count are disjoint together and contain the same
numbers. -/
theorem PairwiseDisjoint.of_cover (h : PairwiseDisjoint l) (hcover : ∀ n, cover l' n = cover l n) :
    PairwiseDisjoint l' ∧ ∀ n, (∃ e ∈ l', n ∈ e.members) ↔ ∃ e ∈ l, n ∈ e.members := by
  constructor
  · rw [pairwiseDisjoint_iff] at h ⊢
    intro n
    rw [hcover]
    exact h n
  · intro n
    rw [← cover_pos, ← cover_pos, hcover]

end ScratchBird.Lib
