import Mathlib.Data.List.Sort

/-!
# Warshall's closure over an enumerated type

A Boolean relation on a type whose elements are listed by `vs` is stored as a
table of rows. The closure visits the elements of `vs` in order and, for each
pivot `k`, adds every pair joined through `k`. The result is the reflexive
transitive closure of the relation it starts from.

The invariant that carries the completeness half is about pivots already
visited: after the loop has passed `k`, the table is closed under composition
at `k`, and no later pivot disturbs that. It is the only fact about the loop
that needs the order of the visits to be irrelevant, and it is why the loop can
run in place: a pivot's own row and column do not change while it is visited.
-/

namespace ScratchBird.Lib

variable {V : Type} [DecidableEq V] {i j k l : V} {ks : List V}

def tabulate (vs : List V) (f : V → V → Bool) : List (List Bool) :=
  vs.map fun i => vs.map fun j => f i j

def cellAt (vs : List V) (m : List (List Bool)) (i j : V) : Bool :=
  (m.getD (vs.idxOf i) []).getD (vs.idxOf j) false

def pivot (vs : List V) (m : List (List Bool)) (k : V) : List (List Bool) :=
  tabulate vs fun i j => cellAt vs m i j || (cellAt vs m i k && cellAt vs m k j)

def warshall (vs : List V) (m : List (List Bool)) : List (List Bool) := vs.foldl (pivot vs) m

variable {vs : List V} {f : V → V → Bool} {m : List (List Bool)}

theorem cellAt_tabulate (hi : i ∈ vs) (hj : j ∈ vs) : cellAt vs (tabulate vs f) i j = f i j := by
  have hi' := List.idxOf_lt_length_of_mem hi
  have hj' := List.idxOf_lt_length_of_mem hj
  simp [cellAt, tabulate, hi', hj']

/-- Composition at `k` is already present in the table. -/
def ClosedAt (vs : List V) (m : List (List Bool)) (k : V) : Prop :=
  ∀ i ∈ vs, ∀ j ∈ vs, cellAt vs m i k = true → cellAt vs m k j = true → cellAt vs m i j = true

theorem cellAt_pivot_iff (hi : i ∈ vs) (hj : j ∈ vs) :
    cellAt vs (pivot vs m k) i j = true ↔ cellAt vs m i j = true ∨
        (cellAt vs m i k = true ∧ cellAt vs m k j = true) := by
  rw [pivot, cellAt_tabulate hi hj]
  simp

theorem closedAt_pivot_self (hk : k ∈ vs) : ClosedAt vs (pivot vs m k) k := by
  intro i hi j hj hik hkj
  rw [cellAt_pivot_iff hi hk] at hik
  rw [cellAt_pivot_iff hk hj] at hkj
  rw [cellAt_pivot_iff hi hj]
  exact .inr ⟨hik.elim id (·.1), hkj.elim id (·.2)⟩

theorem closedAt_pivot_of_closedAt (hk : k ∈ vs) (hl : l ∈ vs) (h : ClosedAt vs m l) :
    ClosedAt vs (pivot vs m k) l := by
  intro i hi j hj hil hlj
  rw [cellAt_pivot_iff hi hl] at hil
  rw [cellAt_pivot_iff hl hj] at hlj
  rw [cellAt_pivot_iff hi hj]
  rcases hil with hil | ⟨hik, hkl⟩
  · rcases hlj with hlj | ⟨hlk, hkj⟩
    · exact .inl (h i hi j hj hil hlj)
    · exact .inr ⟨h i hi k hk hil hlk, hkj⟩
  · rcases hlj with hlj | ⟨_, hkj⟩
    · exact .inr ⟨hik, h k hk j hj hkl hlj⟩
    · exact .inr ⟨hik, hkj⟩

theorem cellAt_foldl_of_cellAt (hi : i ∈ vs) (hj : j ∈ vs) (h : cellAt vs m i j = true) :
    cellAt vs (ks.foldl (pivot vs) m) i j = true := by
  induction ks generalizing m with
  | nil => exact h
  | cons k ks ih => exact ih ((cellAt_pivot_iff hi hj).mpr (.inl h))

theorem closedAt_foldl (hks : ∀ k ∈ ks, k ∈ vs) (hl : l ∈ vs) (h : l ∈ ks ∨ ClosedAt vs m l) :
    ClosedAt vs (ks.foldl (pivot vs) m) l := by
  induction ks generalizing m with
  | nil => simpa using h
  | cons k ks ih =>
    have hk : k ∈ vs := hks k (by simp)
    refine ih (List.forall_mem_cons.mp hks).2 ?_
    rcases h with h | h
    · rcases List.mem_cons.mp h with rfl | h
      · exact .inr (closedAt_pivot_self hk)
      · exact .inl h
    · exact .inr (closedAt_pivot_of_closedAt hk hl h)

/-- Whatever relation a table stays inside, if it is transitive the pivots stay
inside it too. -/
theorem foldl_sound {r : V → V → Prop} (hks : ∀ k ∈ ks, k ∈ vs)
    (htrans : ∀ a b c, r a b → r b c → r a c)
    (hm : ∀ i ∈ vs, ∀ j ∈ vs, cellAt vs m i j = true → r i j) :
    ∀ i ∈ vs, ∀ j ∈ vs, cellAt vs (ks.foldl (pivot vs) m) i j = true → r i j := by
  induction ks generalizing m with
  | nil => exact hm
  | cons k ks ih =>
    have hk : k ∈ vs := hks k (by simp)
    refine ih (List.forall_mem_cons.mp hks).2 ?_
    intro i hi j hj h
    rcases (cellAt_pivot_iff hi hj).mp h with h | ⟨hik, hkj⟩
    · exact hm i hi j hj h
    · exact htrans i k j (hm i hi k hk hik) (hm k hk j hj hkj)

/-- The closure of a table that starts reflexive is reachability. -/
theorem cellAt_warshall_iff (hall : ∀ v, v ∈ vs) (hrefl : ∀ v, f v v = true) :
    cellAt vs (warshall vs (tabulate vs f)) i j = true ↔
      Relation.ReflTransGen (fun a b => f a b = true) i j := by
  constructor
  · intro h
    refine foldl_sound (fun k _ => hall k)
      (fun _ _ _ => Relation.ReflTransGen.trans) ?_ i (hall i) j (hall j) h
    intro a ha b hb hab
    rw [cellAt_tabulate ha hb] at hab
    exact Relation.ReflTransGen.single hab
  · intro h
    have base : ∀ a b, f a b = true → cellAt vs (warshall vs (tabulate vs f)) a b = true := by
      intro a b hab
      refine cellAt_foldl_of_cellAt (hall a) (hall b) ?_
      rwa [cellAt_tabulate (hall a) (hall b)]
    induction h with
    | refl => exact base i i (hrefl i)
    | tail _ hbc ih =>
      exact closedAt_foldl (fun k _ => hall k) (hall _) (.inl (hall _))
        i (hall i) _ (hall _) ih (base _ _ hbc)

end ScratchBird.Lib
