import Mathlib.Order.MinMax
import Mathlib.Order.Nat
import Mathlib.Data.List.Sort

/-!
# Running minima and maxima

A loop that starts from a default and lowers it by the value of each selected
element, and its mirror image. The default matters: it is the answer when
nothing is selected, so the rules below say when the answer lies at or below a
bound, and the default is one of the ways it can.
-/

namespace ScratchBird.Lib

variable {α : Type}

def leastOf (start : Nat) (p : α → Bool) (f : α → Nat) (l : List α) : Nat :=
  l.foldl (fun least a => if p a then min least (f a) else least) start

def greatestOf (start : Nat) (p : α → Bool) (f : α → Nat) (l : List α) : Nat :=
  l.foldl (fun greatest a => if p a then max greatest (f a) else greatest) start

variable {start n : Nat} {p : α → Bool} {f : α → Nat} {l : List α}

theorem leastOf_le_iff : leastOf start p f l ≤ n ↔ start ≤ n ∨ ∃ a ∈ l, p a = true ∧ f a ≤ n := by
  unfold leastOf
  induction l generalizing start with
  | nil => simp
  | cons a l ih =>
    rw [List.foldl_cons, ih]
    simp only [List.mem_cons, exists_eq_or_imp]
    by_cases hp : p a = true
    · rw [if_pos hp, min_le_iff, or_assoc]
      simp only [hp, true_and]
    · rw [if_neg hp]
      simp only [hp, false_and, false_or, Bool.false_eq_true]

theorem lt_leastOf_iff : n < leastOf start p f l ↔ n < start ∧ ∀ a ∈ l, p a = true → n < f a := by
  rw [← not_le, leastOf_le_iff]
  simp only [not_or, not_exists, not_and, not_le]

theorem le_greatestOf_iff :
    n ≤ greatestOf start p f l ↔ n ≤ start ∨ ∃ a ∈ l, p a = true ∧ n ≤ f a := by
  unfold greatestOf
  induction l generalizing start with
  | nil => simp
  | cons a l ih =>
    rw [List.foldl_cons, ih]
    simp only [List.mem_cons, exists_eq_or_imp]
    by_cases hp : p a = true
    · rw [if_pos hp, le_max_iff, or_assoc]
      simp only [hp, true_and]
    · rw [if_neg hp]
      simp only [hp, false_and, false_or, Bool.false_eq_true]

theorem lt_foldl_min_iff {l : List Nat} : n < l.foldl min start ↔ n < start ∧ ∀ a ∈ l, n < a := by
  induction l generalizing start with
  | nil => simp
  | cons a l ih =>
    rw [List.foldl_cons, ih, lt_min_iff]
    simp only [List.mem_cons, forall_eq_or_imp, and_assoc]

end ScratchBird.Lib
